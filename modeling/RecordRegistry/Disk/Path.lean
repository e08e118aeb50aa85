import RecordRegistry.Text.Quoted
import RecordRegistry.Text.Utf8

/-!
# Paths

A path is a list of names below the working directory or below a root. Doubled slashes, a trailing
slash and the name `.` say nothing and are dropped; the name `..` is kept, since only a directory
knows what lies above it.
-/

namespace RecordRegistry

/-- Where a path starts. A path with two leading slashes is kept apart from one with a single
one. -/
inductive Path.Start where
  | here
  | root
  | doubleRoot
deriving DecidableEq, Repr

/-- A start and the names from there on. -/
structure Path where
  start : Path.Start
  names : List Text
deriving DecidableEq, Repr

namespace Path

/-- The leading slashes of a path. -/
def Start.text : Start → Text
  | .here => ""
  | .root => "/"
  | .doubleRoot => "//"

/-- The start that a number of leading slashes means; three or more are as good as one. -/
def Start.ofSlashes : Nat → Start
  | 0 => .here
  | 2 => .doubleRoot
  | _ => .root

/-- The path that a text writes. -/
def ofText (s : Text) : Path :=
  let names := (s.toList.splitOn (.char '/')).filter fun name => name ≠ [] ∧ name ≠ [.char '.']
  ⟨Start.ofSlashes (s.toList.takeWhile (· = .char '/')).length, names.map Text.ofList⟩

/-- The shortest text of a path; a path without names at the working directory is a dot. -/
def toText (p : Path) : Text :=
  if p.start = .here ∧ p.names = [] then "."
  else p.start.text ++ Text.intercalate "/" p.names

/-- The first place in the text of a path that has no bytes on a disk. Names are written in UTF-8,
and a surrogate from U+DC80 to U+DCFF stands for a single byte that is none. -/
def firstUnwritable (position : Nat) : List CodePoint → Option Text.SurrogateError
  | [] => none
  | .char _ :: rest => firstUnwritable (position + 1) rest
  | .surrogate s :: rest =>
    if 0xDC80 ≤ s.code && s.code ≤ 0xDCFF then firstUnwritable (position + 1) rest
    else some ⟨s, position, (rest.takeWhile CodePoint.isSurrogate).length + 1⟩

/-- The path without its last name; a path without names stays. -/
def parent (p : Path) : Path := { p with names := p.names.dropLast }

/-- The path one name further. -/
def child (p : Path) (name : Text) : Path := { p with names := p.names ++ [name] }

/-- The last name; a path without names has the empty one. -/
def lastName (p : Path) : Text := p.names.getLast?.getD ""

/-- The end of the last name from its last dot on. A dot that opens or ends the name starts no
suffix. -/
def suffix (p : Path) : List CodePoint :=
  let name := p.lastName.toList
  let after := (name.reverse.takeWhile (· ≠ .char '.')).reverse
  let before := name.take (name.length - after.length - 1)
  if after = [] ∨ after.length = name.length ∨ before = [] then [] else .char '.' :: after

end Path

end RecordRegistry
