import GameHall.Assoc
import GameHall.Text.Utf8

/-!
# File trees

The rules of the games lie in a tree of files and directories. A directory lists its entries in
some order, which nothing but `Tree.files` can see; a path is the list of names from the root.

A name is a list of octets, which need not be text. The files that a program asks for by name
(`Tree.find?`, `Tree.put`, `Tree.remove`) have texts for names.
-/

namespace GameHall

/-- A file or a directory. -/
inductive Tree where
  | file (contents : Octets)
  | directory (entries : List (Octets × Tree))
  deriving Inhabited

namespace Tree

/-- A directory with nothing in it. -/
def empty : Tree := .directory []

/-- What stands at a path. -/
def find? : Tree → List String → Option Tree
  | t, [] => some t
  | .file _, _ :: _ => none
  | .directory entries, name :: rest =>
    match Assoc.get? entries (Utf8.encode name) with
    | none => none
    | some t => t.find? rest
  termination_by _ path => path.length

/-- The tree with `leaf` at a path; directories on the way are made where they are missing, also
in the place of a file. -/
def put (t : Tree) (path : List String) (leaf : Tree) : Tree :=
  match path with
  | [] => leaf
  | name :: rest =>
    match t with
    | .file _ => .directory [(Utf8.encode name, empty.put rest leaf)]
    | .directory entries =>
      let inner := (Assoc.get? entries (Utf8.encode name)).getD empty
      .directory (Assoc.set entries (Utf8.encode name) (inner.put rest leaf))

/-- The tree with nothing at a path. -/
def remove (t : Tree) (path : List String) : Tree :=
  match path, t with
  | [], t => t
  | _ :: _, .file contents => .file contents
  | [name], .directory entries => .directory (Assoc.erase entries (Utf8.encode name))
  | name :: next :: rest, .directory entries =>
    match Assoc.get? entries (Utf8.encode name) with
    | none => .directory entries
    | some u => .directory (Assoc.set entries (Utf8.encode name) (u.remove (next :: rest)))

/-- A file of a tree. -/
structure File where
  path : List Octets
  contents : Octets
  deriving DecidableEq

mutual

/-- The files of a tree that stands at a path, directory by directory. -/
def filesAt (path : List Octets) : Tree → List File
  | .file contents => [⟨path, contents⟩]
  | .directory entries => filesOf path entries

/-- The files of the entries of a directory that stands at a path. -/
def filesOf (path : List Octets) : List (Octets × Tree) → List File
  | [] => []
  | (name, t) :: rest => filesAt (path ++ [name]) t ++ filesOf path rest

end

/-- The files of a tree. -/
def files (t : Tree) : List File := filesAt [] t

end Tree

end GameHall
