import GameHall.Bundle.Fingerprint
import GameHall.Proofs.Bundle.Tree
import GameHall.Proofs.Text.Utf8
import Mathlib.Algebra.Group.Nat.Defs
import Mathlib.Data.List.Nodup

/-!
# What a fingerprint tells

The stream of a bundle can be taken apart again: a path ends at the first zero octet, the number of
octets behind it has a fixed width, and tells how long the contents are, whatever is in them
(`entries_injective`). The files are put in order before they are written, so a stream has nothing of
the order in which they were found (`stream_eq_iff_same`).

So two bundles have one stream just if they have the same files, and one fingerprint just if they have
the same files or their streams are a collision of the digest (`identified`). This holds of bundles
without zero octets in paths whose files all have different relative paths and names that are text; empty
directories are not seen.

A name that is no text enters the stream as what can be read of it, which other names may share: that is
why the names have to be text (`not_only_same`). The order of the files never matters.
-/

namespace GameHall

namespace Octets

theorem ofNatLittle_injective {width n m : Nat} (hn : n < 256 ^ width) (hm : m < 256 ^ width)
    (h : ofNatLittle width n = ofNatLittle width m) : n = m := by
  induction width generalizing n m with
  | zero => omega
  | succ width ih =>
      obtain ⟨hlow, hhigh⟩ := List.cons.inj h
      have hlow' : n % 256 = m % 256 := by simpa using congrArg UInt8.toNat hlow
      rw [Nat.pow_succ] at hn hm
      have hrest : n / 256 = m / 256 := ih (by omega) (by omega) hhigh
      omega

theorem hexDigit_injective : ∀ n < 16, ∀ m < 16, hexDigit n = hexDigit m → n = m := by decide

theorem toHex_injective {bs bs' : Octets} (h : toHex bs = toHex bs') : bs = bs' := by
  rw [toHex, toHex, String.ofList_inj] at h
  induction bs generalizing bs' with
  | nil =>
      cases bs' with
      | nil => rfl
      | cons b bs' => cases h
  | cons b bs ih =>
      cases bs' with
      | nil => cases h
      | cons b' bs' =>
          simp only [List.flatMap_cons, List.cons_append, List.nil_append, List.cons.injEq] at h
          obtain ⟨hhigh, hlow, hrest⟩ := h
          have hb := b.toNat_lt
          have hb' := b'.toNat_lt
          have hhigh' := hexDigit_injective _ (by omega) _ (by omega) hhigh
          have hlow' := hexDigit_injective _ (by omega) _ (by omega) hlow
          have heq : b = b' := UInt8.toNat_inj.mp (by omega)
          rw [heq, ih hrest]

end Octets

namespace Bundle

/-! ## Paths -/

/-- What an octet of a path is written as. -/
def slashed (b : UInt8) : UInt8 := if b = 0x5C then 0x2F else b

/-- A path with its names joined by slashes, and slashes for backslashes. -/
def normalised (path : List Octets) : Octets := (joined path).map slashed

/-- Whether a name is text. -/
def isText (name : Octets) : Bool := (Utf8.decode? name).isSome

theorem slashed_encodeChar (c : Char) : Utf8.encodeChar (slash c) = (Utf8.encodeChar c).map slashed := by
  by_cases hc : c = '\\'
  · rw [hc]
    rfl
  · have hkeep : ∀ b ∈ Utf8.encodeChar c, slashed b = b := by
      intro b hb
      refine if_neg fun hbackslash => hc ?_
      obtain ⟨hlow, hoctet⟩ | hhigh := Utf8.octet_of_char hb
      · -- the octet `0x5C` is the backslash
        have heq := congrArg UInt8.toNat (hoctet.symm.trans hbackslash)
        rw [Utf8.toNat_octet (by omega)] at heq
        rw [← Char.ofNat_toNat c, heq]
        rfl
      · rw [hbackslash] at hhigh
        exact absurd hhigh (by decide)
    rw [slash, if_neg hc, List.map_congr_left hkeep, List.map_id']

/-- A path of texts is joined to a text. -/
theorem exists_joined {path : List Octets} (h : ∀ name ∈ path, isText name = true) :
    ∃ cs : List Char, joined path = cs.flatMap Utf8.encodeChar := by
  unfold joined
  induction path with
  | nil => exact ⟨[], rfl⟩
  | cons name path ih =>
      obtain ⟨text, htext⟩ := Option.isSome_iff_exists.mp (h name List.mem_cons_self)
      have hname : name = text.toList.flatMap Utf8.encodeChar := Utf8.decode?_eq_some_iff.mp htext
      obtain ⟨cs, hcs⟩ := ih fun name' hmem => h name' (List.mem_cons_of_mem _ hmem)
      cases path with
      | nil => exact ⟨text.toList, by simpa using hname⟩
      | cons next path =>
          refine ⟨text.toList ++ '/' :: cs, ?_⟩
          rw [List.flatMap_append, List.flatMap_cons, ← hcs, ← hname]
          simp [List.intercalate]
          rfl

/-- **A path of texts enters the stream as it is**, but for its backslashes. -/
theorem relative_of_text {path : List Octets} (h : ∀ name ∈ path, isText name = true) :
    relative path = normalised path := by
  obtain ⟨cs, hcs⟩ := exists_joined h
  rw [relative, normalised, hcs, Utf8.legible_flatMap, List.flatMap_map, List.map_flatMap]
  simp only [slashed_encodeChar]

/-! ## Taking a stream apart -/

/-- What the stream says of a file: its relative path and what is in it. -/
def told (f : Tree.File) : Octets × Octets := (relative f.path, f.contents)

/-- How it says so. -/
def written (e : Octets × Octets) : Octets :=
  e.1 ++ [0] ++ Octets.ofNatLittle 8 e.2.length ++ e.2

/-- What can be told apart from what follows it. -/
structure Fits (e : Octets × Octets) : Prop where
  noZero : (0 : UInt8) ∉ e.1
  length : e.2.length < 256 ^ 8

/-- What stands before the first zero octet is known. -/
theorem append_zero_injective {p p' rest rest' : Octets} (hp : (0 : UInt8) ∉ p) (hp' : (0 : UInt8) ∉ p')
    (h : p ++ 0 :: rest = p' ++ 0 :: rest') : p = p' ∧ rest = rest' := by
  induction p generalizing p' with
  | nil =>
      cases p' with
      | nil => exact ⟨rfl, (List.cons.inj h).2⟩
      | cons b p' =>
          have hb : (0 : UInt8) = b := (List.cons.inj h).1
          exact absurd hb (fun heq => hp' (heq ▸ List.mem_cons_self))
  | cons a p ih =>
      cases p' with
      | nil =>
          have ha : a = 0 := (List.cons.inj h).1
          exact absurd ha (fun heq => hp (heq ▸ List.mem_cons_self))
      | cons b p' =>
          obtain ⟨rfl, htail⟩ := List.cons.inj h
          obtain ⟨rfl, hrest⟩ := ih (fun hmem => hp (List.mem_cons_of_mem _ hmem))
            (fun hmem => hp' (List.mem_cons_of_mem _ hmem)) htail
          exact ⟨rfl, hrest⟩

/-- **What is written of one file is told apart from all that follows.** -/
theorem written_append_injective {e e' : Octets × Octets} (he : Fits e) (he' : Fits e')
    {rest rest' : Octets} (h : written e ++ rest = written e' ++ rest') : e = e' ∧ rest = rest' := by
  obtain ⟨path, contents⟩ := e
  obtain ⟨path', contents'⟩ := e'
  simp only [written, List.append_assoc, List.singleton_append] at h
  obtain ⟨hpath, hbody⟩ := append_zero_injective he.noZero he'.noZero h
  have hwidth : (Octets.ofNatLittle 8 contents.length).length
      = (Octets.ofNatLittle 8 contents'.length).length := by
    rw [Octets.length_ofNatLittle, Octets.length_ofNatLittle]
  obtain ⟨hnumber, hcontents⟩ := List.append_inj hbody hwidth
  have hlength : contents.length = contents'.length :=
    Octets.ofNatLittle_injective he.length he'.length hnumber
  obtain ⟨hcontents, hrest⟩ := List.append_inj hcontents hlength
  exact ⟨Prod.ext hpath hcontents, hrest⟩

theorem written_ne_nil (e : Octets × Octets) : written e ≠ [] := by simp [written]

theorem entries_injective {es es' : List (Octets × Octets)} (hes : ∀ e ∈ es, Fits e)
    (hes' : ∀ e ∈ es', Fits e) (h : es.flatMap written = es'.flatMap written) : es = es' := by
  induction es generalizing es' with
  | nil =>
      cases es' with
      | nil => rfl
      | cons e' es' =>
          rw [List.flatMap_nil, List.flatMap_cons] at h
          exact absurd (List.append_eq_nil_iff.mp h.symm).1 (written_ne_nil e')
  | cons e es ih =>
      cases es' with
      | nil =>
          rw [List.flatMap_nil, List.flatMap_cons] at h
          exact absurd (List.append_eq_nil_iff.mp h).1 (written_ne_nil e)
      | cons e' es' =>
          rw [List.flatMap_cons, List.flatMap_cons] at h
          obtain ⟨rfl, hrest⟩ := written_append_injective (hes e List.mem_cons_self)
            (hes' e' List.mem_cons_self) h
          rw [ih (fun e he => hes e (List.mem_cons_of_mem _ he))
            (fun e he => hes' e (List.mem_cons_of_mem _ he)) hrest]

/-! ## The order of the files -/

theorem comesFirst_iff {x y : Tree.File} : comesFirst x y = true
    ↔ relative x.path < relative y.path
      ∨ relative x.path = relative y.path ∧ x.path ≤ y.path := by
  rw [comesFirst, Bool.or_eq_true, Bool.and_eq_true, decide_eq_true_iff, beq_iff_eq,
    decide_eq_true_iff, List.not_lt]

theorem comesFirst_trans (x y z : Tree.File) (hxy : comesFirst x y = true)
    (hyz : comesFirst y z = true) : comesFirst x z = true := by
  rw [comesFirst_iff] at hxy hyz ⊢
  rcases hxy with hxy | ⟨hxy, hnames⟩
  · rcases hyz with hyz | ⟨hyz, _⟩
    · exact Or.inl (List.lt_trans hxy hyz)
    · exact Or.inl (hyz ▸ hxy)
  · rw [hxy]
    rcases hyz with hyz | ⟨hyz, hnames'⟩
    · exact Or.inl hyz
    · exact Or.inr ⟨hyz, List.le_trans hnames hnames'⟩

theorem comesFirst_total (x y : Tree.File) : (comesFirst x y || comesFirst y x) = true := by
  rw [Bool.or_eq_true, comesFirst_iff, comesFirst_iff]
  rcases Std.lt_trichotomy (relative x.path) (relative y.path) with hlt | heq | hgt
  · exact Or.inl (Or.inl hlt)
  · rcases List.le_total x.path y.path with hle | hge
    · exact Or.inl (Or.inr ⟨heq, hle⟩)
    · exact Or.inr (Or.inr ⟨heq.symm, hge⟩)
  · exact Or.inr (Or.inl hgt)

/-- Files that come before each other have one path. -/
theorem path_eq_of_comesFirst {x y : Tree.File} (hxy : comesFirst x y = true)
    (hyx : comesFirst y x = true) : x.path = y.path := by
  rw [comesFirst_iff] at hxy hyx
  rcases hxy with hxy | ⟨heq, hle⟩
  · rcases hyx with hyx | ⟨heq, _⟩
    · exact absurd hyx (List.lt_asymm hxy)
    · exact absurd hxy (heq ▸ List.lt_irrefl _)
  · rcases hyx with hyx | ⟨_, hge⟩
    · exact absurd hyx (heq ▸ List.lt_irrefl _)
    · exact List.le_antisymm hle hge

/-- **The order in which files are found makes no difference to a stream**, as no two files have one
path. -/
theorem stream_of_perm {files files' : List Tree.File} (hpaths : (files.map Tree.File.path).Nodup)
    (h : files.Perm files') : stream files = stream files' := by
  have hperm : (files.mergeSort comesFirst).Perm files := List.mergeSort_perm files comesFirst
  have hperm' : (files'.mergeSort comesFirst).Perm files' := List.mergeSort_perm files' comesFirst
  have hsorted := List.pairwise_mergeSort comesFirst_trans comesFirst_total files
  have hsorted' := List.pairwise_mergeSort comesFirst_trans comesFirst_total files'
  have heq : files.mergeSort comesFirst = files'.mergeSort comesFirst := by
    refine List.Perm.eq_of_pairwise (fun x y hx hy hxy hyx => ?_) hsorted hsorted'
      (hperm.trans (h.trans hperm'.symm))
    exact List.inj_on_of_nodup_map hpaths (hperm.mem_iff.mp hx)
      (h.mem_iff.mpr (hperm'.mem_iff.mp hy)) (path_eq_of_comesFirst hxy hyx)
  rw [stream, stream, heq]

/-- What the stream says of the files, in its order. -/
def listed (files : List Tree.File) : List (Octets × Octets) := (files.mergeSort comesFirst).map told

theorem stream_eq (files : List Tree.File) : stream files = (listed files).flatMap written := by
  rw [stream, listed, List.flatMap_map]
  rfl

theorem stream_singleton (f : Tree.File) : stream [f] = entry f := by
  rw [stream, List.mergeSort_singleton, List.flatMap_singleton]

theorem perm_listed (files : List Tree.File) : (listed files).Perm (files.map told) :=
  (List.mergeSort_perm files comesFirst).map told

/-- Files with different relative paths are listed in the order of these. -/
theorem sorted_listed {files : List Tree.File}
    (hdistinct : (files.map fun f => relative f.path).Nodup) :
    (listed files).Pairwise fun e e' => e.1 < e'.1 := by
  have hperm : (files.mergeSort comesFirst).Perm files := List.mergeSort_perm files comesFirst
  have hne : (files.mergeSort comesFirst).Pairwise fun x y => relative x.path ≠ relative y.path :=
    List.pairwise_map.mp (hperm.map _ |>.nodup_iff.mpr hdistinct)
  have hsorted := List.pairwise_mergeSort comesFirst_trans comesFirst_total files
  refine List.pairwise_map.mpr ((hsorted.and hne).imp fun {x y} h => ?_)
  rcases comesFirst_iff.mp h.1 with hlt | ⟨heq, _⟩
  · exact hlt
  · exact absurd heq h.2

/-- Of lists in the order of the paths there is one for a given set of entries. -/
theorem listed_eq_iff {files files' : List Tree.File}
    (h : (files.map fun f => relative f.path).Nodup)
    (h' : (files'.map fun f => relative f.path).Nodup) :
    listed files = listed files' ↔ ∀ e, e ∈ files.map told ↔ e ∈ files'.map told := by
  have hnodup : ∀ {files : List Tree.File}, (files.map fun f => relative f.path).Nodup →
      (files.map told).Nodup := by
    intro files h
    have hfst : (files.map told).map Prod.fst = files.map fun f => relative f.path := by
      rw [List.map_map]
      rfl
    exact List.Nodup.of_map Prod.fst (hfst ▸ h)
  constructor
  · intro heq e
    rw [← (perm_listed files).mem_iff, ← (perm_listed files').mem_iff, heq]
  · intro hsame
    have hperm : (files.map told).Perm (files'.map told) :=
      (List.perm_ext_iff_of_nodup (hnodup h) (hnodup h')).mpr hsame
    refine List.Perm.eq_of_pairwise (fun a b _ _ hab hba => ?_) (sorted_listed h) (sorted_listed h')
      ((perm_listed files).trans (hperm.trans (perm_listed files').symm))
    exact absurd hba (List.lt_asymm hab)

/-! ## Bundles -/

/-- A file with a relative path is in a bundle, with its contents. -/
def Holds (t : Tree) (e : Octets × Octets) : Prop :=
  ∃ path, t.Has path e.2 ∧ normalised path = e.1

/-- Two bundles hold the same files. -/
def SameFiles (t t' : Tree) : Prop := ∀ e, Holds t e ↔ Holds t' e

/-- A bundle as it may lie on a machine, whose files have different relative paths. -/
structure Plain (t : Tree) : Prop where
  /-- No path has a zero octet in it. -/
  noZero : ∀ f ∈ t.files, (0 : UInt8) ∉ joined f.path
  /-- No two files have one relative path. -/
  distinct : (t.files.map fun f => normalised f.path).Nodup
  /-- The number of octets of a file fits its field. -/
  length : ∀ f ∈ t.files, f.contents.length < 256 ^ 8

/-- A bundle whose names are all text. -/
def Legible (t : Tree) : Prop := ∀ f ∈ t.files, ∀ name ∈ f.path, isText name = true

section bundles

variable {t t' : Tree}

theorem distinct_path (h : Plain t) : (t.files.map Tree.File.path).Nodup := by
  have hdistinct := h.distinct
  rw [show (fun f : Tree.File => normalised f.path) = normalised ∘ Tree.File.path from rfl,
    ← List.map_map] at hdistinct
  exact List.Nodup.of_map normalised hdistinct

theorem relative_of_legible (htext : Legible t) :
    ∀ f ∈ t.files, relative f.path = normalised f.path :=
  fun f hf => relative_of_text (htext f hf)

theorem distinct_relative (h : Plain t) (htext : Legible t) :
    (t.files.map fun f => relative f.path).Nodup := by
  rw [List.map_congr_left (relative_of_legible htext)]
  exact h.distinct

theorem mem_told_iff (htext : Legible t) {e : Octets × Octets} :
    e ∈ t.files.map told ↔ Holds t e := by
  rw [List.mem_map]
  constructor
  · rintro ⟨f, hf, rfl⟩
    exact ⟨f.path, Tree.mem_files_iff.mp hf, (relative_of_legible htext f hf).symm⟩
  · rintro ⟨path, hfile, hpath⟩
    have hf : ⟨path, e.2⟩ ∈ t.files := Tree.mem_files_iff.mpr hfile
    exact ⟨⟨path, e.2⟩, hf, Prod.ext ((relative_of_legible htext _ hf).trans hpath) rfl⟩

theorem fits_of_plain (h : Plain t) (htext : Legible t) : ∀ e ∈ listed t.files, Fits e := by
  intro e he
  obtain ⟨f, hf, rfl⟩ := List.mem_map.mp ((perm_listed t.files).mem_iff.mp he)
  refine ⟨fun hzero => ?_, h.length f hf⟩
  rw [told, relative_of_legible htext f hf, normalised] at hzero
  obtain ⟨b, hb, hb0⟩ := List.mem_map.mp hzero
  rw [slashed] at hb0
  split at hb0
  · cases hb0
  · exact h.noZero f hf (hb0 ▸ hb)

/-- **Two bundles have one stream just if they have the same files.** -/
theorem stream_eq_iff_same (h : Plain t) (h' : Plain t') (htext : Legible t) (htext' : Legible t') :
    stream t.files = stream t'.files ↔ SameFiles t t' := by
  have hlisted : stream t.files = stream t'.files ↔ listed t.files = listed t'.files := by
    rw [stream_eq, stream_eq]
    exact ⟨entries_injective (fits_of_plain h htext) (fits_of_plain h' htext'), fun heq => by rw [heq]⟩
  rw [hlisted, listed_eq_iff (distinct_relative h htext) (distinct_relative h' htext')]
  simp only [mem_told_iff htext, mem_told_iff htext', SameFiles]

end bundles

theorem fingerprint_directory (entries : List (Octets × Tree)) :
    fingerprint (some (.directory entries))
      = .ok (Octets.toHex (Sha256.digest (stream (Tree.directory entries).files))) := rfl

/-- What the fingerprints of two directories tell of them. -/
structure Identified (entries entries' : List (Octets × Tree)) : Prop where
  /-- The order in which directories list their entries makes no difference to a stream, and neither do
  empty directories. -/
  order : ∀ other, Tree.Alike entries other →
    stream (Tree.directory other).files = stream (Tree.directory entries).files
  /-- If all names are text, their streams are the same just if all their files are. -/
  stream : Legible (.directory entries) → Legible (.directory entries') →
    (stream (Tree.directory entries).files = stream (Tree.directory entries').files
      ↔ SameFiles (.directory entries) (.directory entries'))
  /-- Both have fingerprints. If all names are text, these are the same just if all their files are, or if
  their streams are different and have one digest. -/
  fingerprint : ∃ text text', fingerprint (some (.directory entries)) = .ok text
    ∧ Bundle.fingerprint (some (.directory entries')) = .ok text'
    ∧ (Legible (.directory entries) → Legible (.directory entries') →
      (text = text' ↔ SameFiles (.directory entries) (.directory entries')
        ∨ Bundle.stream (Tree.directory entries).files ≠ Bundle.stream (Tree.directory entries').files
          ∧ Sha256.digest (Bundle.stream (Tree.directory entries).files)
            = Sha256.digest (Bundle.stream (Tree.directory entries').files)))

theorem stream_of_alike {entries other : List (Octets × Tree)} (h : Plain (.directory entries))
    (halike : Tree.Alike entries other) :
    stream (Tree.directory other).files = stream (Tree.directory entries).files :=
  (stream_of_perm (distinct_path h) (Tree.perm_files halike)).symm

/-- **A fingerprint identifies a bundle whose names are text**, as far as its digest does. -/
theorem identified {entries entries' : List (Octets × Tree)} (h : Plain (.directory entries))
    (h' : Plain (.directory entries')) : Identified entries entries' where
  order := fun _ => stream_of_alike h
  stream := stream_eq_iff_same h h'
  fingerprint := by
    refine ⟨_, _, fingerprint_directory entries, fingerprint_directory entries', fun htext htext' => ?_⟩
    rw [← stream_eq_iff_same h h' htext htext']
    constructor
    · intro heq
      have hdigest := Octets.toHex_injective heq
      -- either the same octets, or two streams that collide
      by_cases hstream : Bundle.stream (Tree.directory entries).files
          = Bundle.stream (Tree.directory entries').files
      · exact Or.inl hstream
      · exact Or.inr ⟨hstream, hdigest⟩
    · rintro (hstream | ⟨_, hdigest⟩)
      · rw [hstream]
      · rw [hdigest]

/-- A bundle, and the same where it was unpacked with a backslash in a name and with a directory more. -/
theorem identified_unpacked :
    let entries := [(Utf8.encode "init.lua", Tree.file [1]),
      (Utf8.encode "lua", .directory [(Utf8.encode "core.lua", .file [])])]
    let entries' := [(Utf8.encode "lua\\core.lua", Tree.file []), (Utf8.encode "spare", .directory []),
      (Utf8.encode "init.lua", .file [1])]
    Plain (.directory entries) ∧ Plain (.directory entries') ∧ Legible (.directory entries)
      ∧ Legible (.directory entries') ∧ Identified entries entries' := by
  intro entries entries'
  have hplain : Plain (.directory entries) := ⟨by decide, by decide, by decide⟩
  have hplain' : Plain (.directory entries') := ⟨by decide, by decide, by decide⟩
  have htext : Legible (.directory entries) := by unfold Legible; decide
  have htext' : Legible (.directory entries') := by unfold Legible; decide
  exact ⟨hplain, hplain', htext, htext', identified hplain hplain'⟩

/-- **Bundles with different files may have one fingerprint**: a file whose name is the octet `0xFF`, and
one with the same contents whose name is `0xFE`. Of neither name anything can be read. -/
theorem not_only_same :
    let entries := [([0xFF], Tree.file [1])]
    let entries' := [([0xFE], Tree.file [1])]
    Plain (.directory entries) ∧ Plain (.directory entries')
      ∧ stream (Tree.directory entries).files = stream (Tree.directory entries').files
      ∧ fingerprint (some (.directory entries)) = fingerprint (some (.directory entries'))
      ∧ ¬ SameFiles (.directory entries) (.directory entries') := by
  intro entries entries'
  have hentry : entry ⟨[[0xFF]], [1]⟩ = entry ⟨[[0xFE]], [1]⟩ := by decide
  have hstream : stream (Tree.directory entries).files = stream (Tree.directory entries').files :=
    (stream_singleton _).trans (hentry.trans (stream_singleton _).symm)
  refine ⟨⟨by decide, by decide, by decide⟩, ⟨by decide, by decide, by decide⟩, hstream, ?_, ?_⟩
  · rw [fingerprint_directory, fingerprint_directory, hstream]
  · intro hsame
    -- the second bundle has no file with the name of the first
    obtain ⟨path, hfile, hpath⟩ := (hsame ([0xFF], [1])).mp
      ⟨[[0xFF]], .inside List.mem_cons_self (.here [1]), by decide⟩
    have hf : ⟨path, [1]⟩ ∈ (Tree.directory entries').files := Tree.mem_files_iff.mpr hfile
    obtain rfl : path = [[0xFE]] := congrArg Tree.File.path (List.mem_singleton.mp hf)
    exact absurd hpath (by decide)

end Bundle

end GameHall
