import GameHall.Bundle.Tree
import Mathlib.Data.List.Perm.Basic

/-!
# The files of a tree

A tree is gone through directory by directory, and all files that stand in it are found, each at its
path (`Tree.mem_files_iff`). Trees that differ in the order in which directories list their entries, and
in empty directories, are `Alike`: the files found in them are the same (`Tree.perm_files`).

A directory of the type may list two entries with one name, which no directory on a machine does.
-/

namespace GameHall.Tree

/-- A file stands at a path in a tree. -/
inductive Has : Tree → List Octets → Octets → Prop where
  | here (contents : Octets) : Has (.file contents) [] contents
  | inside {entries : List (Octets × Tree)} {name : Octets} {t : Tree} {path : List Octets}
      {contents : Octets} : (name, t) ∈ entries → Has t path contents →
      Has (.directory entries) (name :: path) contents

theorem has_file_iff {body contents : Octets} {path : List Octets} :
    (Tree.file body).Has path contents ↔ path = [] ∧ contents = body := by
  constructor
  · rintro ⟨⟩
    exact ⟨rfl, rfl⟩
  · rintro ⟨rfl, rfl⟩
    exact .here contents

theorem has_directory_iff {entries : List (Octets × Tree)} {path : List Octets} {contents : Octets} :
    (Tree.directory entries).Has path contents
      ↔ ∃ name t rest, (name, t) ∈ entries ∧ path = name :: rest ∧ t.Has rest contents := by
  constructor
  · intro h
    cases h with
    | inside hentry hfile => exact ⟨_, _, _, hentry, rfl, hfile⟩
  · rintro ⟨name, t, rest, hentry, rfl, hfile⟩
    exact .inside hentry hfile

mutual

/-- The files of a tree are those that stand in it, with the way to the tree in front of their paths. -/
theorem mem_filesAt (f : File) (path : List Octets) : ∀ t : Tree,
    f ∈ filesAt path t ↔ ∃ rest, f.path = path ++ rest ∧ t.Has rest f.contents
  | .file contents => by
      simp only [filesAt, has_file_iff, List.mem_singleton]
      constructor
      · rintro rfl
        exact ⟨[], (List.append_nil path).symm, rfl, rfl⟩
      · rintro ⟨_, hpath, rfl, hcontents⟩
        rw [List.append_nil] at hpath
        cases f
        cases hpath
        cases hcontents
        rfl
  | .directory entries => by
      rw [filesAt, mem_filesOf f path entries]
      simp only [has_directory_iff]
      constructor
      · rintro ⟨name, t, rest, hentry, hpath, hfile⟩
        exact ⟨name :: rest, hpath, name, t, rest, hentry, rfl, hfile⟩
      · rintro ⟨_, hpath, name, t, rest, hentry, rfl, hfile⟩
        exact ⟨name, t, rest, hentry, hpath, hfile⟩

theorem mem_filesOf (f : File) (path : List Octets) : ∀ entries : List (Octets × Tree),
    f ∈ filesOf path entries ↔ ∃ name t rest,
      (name, t) ∈ entries ∧ f.path = path ++ name :: rest ∧ t.Has rest f.contents
  | [] => by simp [filesOf]
  | (name, t) :: entries => by
      rw [filesOf, List.mem_append, mem_filesAt f (path ++ [name]) t, mem_filesOf f path entries]
      simp only [List.append_assoc, List.singleton_append]
      constructor
      · rintro (⟨rest, hpath, hfile⟩ | ⟨name', t', rest, hentry, hpath, hfile⟩)
        · exact ⟨name, t, rest, List.mem_cons_self, hpath, hfile⟩
        · exact ⟨name', t', rest, List.mem_cons_of_mem _ hentry, hpath, hfile⟩
      · rintro ⟨name', t', rest, hentry, hpath, hfile⟩
        rcases List.mem_cons.mp hentry with heq | hmem
        · cases heq
          exact Or.inl ⟨rest, hpath, hfile⟩
        · exact Or.inr ⟨name', t', rest, hmem, hpath, hfile⟩

end

/-- **All files of a tree are found**, and nothing else. -/
theorem mem_files_iff {t : Tree} {f : File} : f ∈ t.files ↔ t.Has f.path f.contents := by
  rw [files, mem_filesAt]
  constructor
  · rintro ⟨rest, hpath, hfile⟩
    rwa [hpath, List.nil_append]
  · exact fun hfile => ⟨f.path, (List.nil_append _).symm, hfile⟩

/-- Directories that differ in the order of entries, at any depth, and in empty directories. -/
inductive Alike : List (Octets × Tree) → List (Octets × Tree) → Prop where
  | refl (entries : List (Octets × Tree)) : Alike entries entries
  | symm {entries entries' : List (Octets × Tree)} : Alike entries entries' → Alike entries' entries
  | trans {entries entries' entries'' : List (Octets × Tree)} : Alike entries entries' →
      Alike entries' entries'' → Alike entries entries''
  | swap (e e' : Octets × Tree) (entries : List (Octets × Tree)) :
      Alike (e :: e' :: entries) (e' :: e :: entries)
  | cons (e : Octets × Tree) {entries entries' : List (Octets × Tree)} : Alike entries entries' →
      Alike (e :: entries) (e :: entries')
  | inside (name : Octets) {inner inner' : List (Octets × Tree)} (entries : List (Octets × Tree)) :
      Alike inner inner' →
      Alike ((name, .directory inner) :: entries) ((name, .directory inner') :: entries)
  | empty (name : Octets) (entries : List (Octets × Tree)) :
      Alike ((name, .directory []) :: entries) entries

theorem perm_filesOf {entries entries' : List (Octets × Tree)} (h : Alike entries entries')
    (path : List Octets) : (filesOf path entries).Perm (filesOf path entries') := by
  induction h generalizing path with
  | refl entries => exact List.Perm.refl _
  | symm _ ih => exact (ih path).symm
  | trans _ _ ih ih' => exact (ih path).trans (ih' path)
  | swap e e' entries =>
      simp only [filesOf]
      rw [← List.append_assoc, ← List.append_assoc]
      exact List.perm_append_comm.append_right _
  | cons e _ ih =>
      simp only [filesOf]
      exact (ih path).append_left _
  | inside name entries _ ih =>
      simp only [filesOf, filesAt]
      exact (ih (path ++ [name])).append_right _
  | empty name entries =>
      simp only [filesOf, filesAt]
      exact List.Perm.refl _

/-- In what order directories are gone through makes no difference to the files. -/
theorem perm_files {entries entries' : List (Octets × Tree)} (h : Alike entries entries') :
    (Tree.directory entries).files.Perm (Tree.directory entries').files := by
  rw [files, files, filesAt, filesAt]
  exact perm_filesOf h []

end GameHall.Tree
