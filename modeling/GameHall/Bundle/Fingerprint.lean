import GameHall.Bundle.Tree
import GameHall.Digest.Sha256
import GameHall.Fault

/-!
# Fingerprints

A client may play only with the rules the server plays by, and an engine may host rooms only as long
as the rules it has loaded are the current ones. Both compare fingerprints: the digest of all files
of the bundle in the order of their relative paths, each as its path, a zero octet, the number of its
octets and the octets themselves.

A relative path enters the stream as the text that can be read of it. In that a backslash counts as a
slash, so that one bundle has one fingerprint wherever it was unpacked. Directories are not in the stream;
an empty one changes nothing.
-/

namespace GameHall

namespace Bundle

/-- The octets of a path with its names joined by slashes. -/
def joined (path : List Octets) : Octets := List.intercalate [0x2F] path

/-- A slash in the place of a backslash. -/
def slash (c : Char) : Char := if c = '\\' then '/' else c

/-- A path as it enters the stream: what can be read of it, with slashes for backslashes. -/
def relative (path : List Octets) : Octets :=
  ((Utf8.legible (joined path)).map slash).flatMap Utf8.encodeChar

/-- Which of two files comes first: the one with the lesser relative path, octet by octet, and of
two that agree in it the one with the lesser path, name by name. -/
def comesFirst (x y : Tree.File) : Bool :=
  decide (relative x.path < relative y.path) ||
    (relative x.path == relative y.path && decide (¬ y.path < x.path))

/-- A file in the stream. -/
def entry (f : Tree.File) : Octets :=
  relative f.path ++ [0] ++ Octets.ofNatLittle 8 f.contents.length ++ f.contents

/-- The stream of a list of files. -/
def stream (files : List Tree.File) : Octets := (files.mergeSort comesFirst).flatMap entry

/-- The fingerprint of a bundle, which has to be there and to be a directory. -/
def fingerprint : Option Tree → Except Fault String
  | some (.directory entries) =>
    .ok (Octets.toHex (Sha256.digest (stream (Tree.directory entries).files)))
  | _ => .error (.bundle "the bundle is no directory")

end Bundle

end GameHall
