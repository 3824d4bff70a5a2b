import GameHall.Discovery
import GameHall.Proofs.Json.RoundTrip
import GameHall.Proofs.Text.Utf8

/-!
# Replies to questions for details

The token of a question comes from anyone, and the server writes it into its reply, as it does with the
words of its own settings. The reply is nevertheless read as six elements, each the one that was put in
(`Answers.read`): this is what `Json.read_render` says of the details. So a client that compares the last
element with the token it sent tells the replies apart.
-/

namespace GameHall.Discovery

theorem plain_detail (s : Summary) (token : String) : (detail s token).Plain :=
  ⟨rfl, rfl, rfl, rfl, rfl, rfl, trivial⟩

theorem depth_detail_le (s : Summary) (token : String) : (detail s token).depth ≤ Json.maxDepth := by
  have hdepth : (detail s token).depth = 1 := rfl
  rw [hdepth]
  decide

/-- What is a detail of one server is a detail of no other. -/
theorem detail_injective {s s' : Summary} {token token' : String} (h : detail s token = detail s' token') :
    s = s' ∧ token = token' := by
  obtain ⟨icon, description, capacity, online⟩ := s
  obtain ⟨icon', description', capacity', online'⟩ := s'
  cases h
  exact ⟨rfl, rfl⟩

theorem after?_eq_some_iff {front bs rest : Octets} : after? front bs = some rest ↔ bs = front ++ rest := by
  unfold after?
  split
  · rename_i hfront
    obtain ⟨tail, rfl⟩ := List.isPrefixOf_iff_prefix.mp hfront
    rw [List.drop_left, Option.some.injEq, List.append_cancel_left_eq]
  · rename_i hfront
    constructor
    · exact fun h => by cases h
    · rintro rfl
      exact absurd (List.isPrefixOf_iff_prefix.mpr (List.prefix_append front rest)) hfront

/-- What looks for servers does not ask for details. -/
theorem detectText_ne (rest : Octets) : detailText ++ rest ≠ detectText := by
  intro h
  have hfront := congrArg (List.take 3) h
  rw [List.take_append_of_le_length (by decide)] at hfront
  exact absurd hfront (by decide)

/-- **A datagram asks for details with a token** just if it is the front of such a question with octets
behind it that spell the token. -/
theorem ofOctets?_eq_detail_iff {datagram : Octets} {token : String} :
    Probe.ofOctets? datagram = some (.detail token)
      ↔ ∃ rest, datagram = detailText ++ rest ∧ Utf8.decode? rest = some token := by
  unfold Probe.ofOctets?
  split
  · rename_i hdetect
    constructor
    · exact fun h => by cases h
    · rintro ⟨rest, hdetail, -⟩
      rw [hdetect] at hdetail
      exact absurd hdetail.symm (detectText_ne rest)
  · simp [Option.bind_eq_some_iff, after?_eq_some_iff]

theorem ofOctets?_question (token : String) :
    Probe.ofOctets? (detailText ++ Utf8.encode token) = some (.detail token) :=
  ofOctets?_eq_detail_iff.mpr ⟨_, rfl, Utf8.decode?_eq_some_iff.mpr rfl⟩

theorem read_detailReply (s : Summary) (token : String) :
    Json.read (detailReply s token) = some (detail s token) :=
  Json.read_render (plain_detail s token) (depth_detail_le s token)

/-- How a server answers a question for details. -/
structure Answers (s : Summary) (token : String) : Prop where
  /-- The question is the front with octets behind it that spell the token, and nothing else is this
  question. -/
  asked : ∀ datagram, Probe.ofOctets? datagram = some (.detail token)
    ↔ ∃ rest, datagram = detailText ++ rest ∧ Utf8.decode? rest = some token
  /-- The octets of the reply are the text of an array of six elements. -/
  read : (Utf8.decode? (Utf8.encode (detailReply s token))).bind Json.read
    = some (.array [.ofText versionTag, .ofText s.iconUrl, .ofText s.description, .ofNat s.capacity,
      .ofNat s.online, .ofText token])
  /-- It is the reply to no other token, nor that of a server with other details. -/
  told : ∀ s' token', Utf8.encode (detailReply s' token') = Utf8.encode (detailReply s token) →
    s' = s ∧ token' = token
  /-- It is what a question that fits into a datagram is answered with. -/
  sent : (detailText ++ Utf8.encode token).length ≤ maxDatagram →
    reply? s (detailText ++ Utf8.encode token) = some (Utf8.encode (detailReply s token))

/-- **Replies match their questions.** A datagram is a question for details just if text stands behind its
front, and this text is its token. Whatever the token and the words of the server are, the reply is read as
the details with this token. -/
theorem replies_match (s : Summary) (token : String) : Answers s token where
  asked := fun _ => ofOctets?_eq_detail_iff
  read := by
    rw [Utf8.decode?_eq_some_iff.mpr rfl, Option.bind_some, read_detailReply]
    rfl
  told := by
    intro s' token' h
    have hreply : detailReply s' token' = detailReply s token := Utf8.encode_injective h
    exact detail_injective (Json.render_injective (plain_detail s' token') (depth_detail_le s' token')
      (plain_detail s token) (depth_detail_le s token) hreply)
  sent := by
    intro hlength
    rw [reply?, List.take_of_length_le hlength, ofOctets?_question]

end GameHall.Discovery
