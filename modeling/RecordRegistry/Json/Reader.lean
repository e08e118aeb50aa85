import RecordRegistry.Json.Reader.Number
import RecordRegistry.Json.Reader.Text

/-!
# Reading JSON

The reader follows the grammar of JSON and also takes the numbers `NaN`, `Infinity` and
`-Infinity`. It works on the rest of the text and gives back what it leaves.
-/

namespace RecordRegistry.Json

/-- The blanks between tokens. -/
def isSpace (c : CodePoint) : Bool :=
  c = .char ' ' || c = .char '\t' || c = .char '\n' || c = .char '\r'

/-- The text from its first character that is no blank. -/
def skipSpace (s : List CodePoint) : List CodePoint := s.dropWhile isSpace

/-- The words that stand for values. -/
def words : List (List CodePoint × Value) := [
    (['n', 'u', 'l', 'l'], .null),
    (['t', 'r', 'u', 'e'], .bool true),
    (['f', 'a', 'l', 's', 'e'], .bool false),
    (['N', 'a', 'N'], .real .nan),
    (['I', 'n', 'f', 'i', 'n', 'i', 't', 'y'], .real (.infinity false)),
    (['-', 'I', 'n', 'f', 'i', 'n', 'i', 't', 'y'], .real (.infinity true))]

/-- Reads a word or a number. -/
def scalar (s : List CodePoint) : Except Stop (Value × List CodePoint) :=
  match words.find? fun word => word.1.isPrefixOf s with
  | some word => .ok (word.2, s.drop word.1.length)
  | none => number s

mutual

/-- Reads the value at the start of a text. -/
def value : Nat → List CodePoint → Except Stop (Value × List CodePoint)
  | 0, _ => .error .tooDeep
  | depth + 1, s =>
    match s with
    | .char '\x22' :: rest => (stringBody s [] rest).map fun read => (.string read.1, read.2)
    | .char '[' :: rest =>
      match skipSpace rest with
      | .char ']' :: rest => .ok (.array [], rest)
      | rest => items depth [] rest
    | .char '\x7b' :: rest =>
      match skipSpace rest with
      | .char '\x7d' :: rest => .ok (.object [], rest)
      | rest => members depth [] rest
    | s => scalar s

/-- Reads the items of an array from the first of them; `read` holds those so far, last one
first. -/
def items : Nat → List Value → List CodePoint → Except Stop (Value × List CodePoint)
  | 0, _, _ => .error .tooDeep
  | depth + 1, read, s =>
    match value depth s with
    | .error stop => .error stop
    | .ok (item, rest) =>
      match skipSpace rest with
      | .char ']' :: rest => .ok (.array (item :: read).reverse, rest)
      | .char ',' :: rest => items depth (item :: read) (skipSpace rest)
      | rest => .error (.fault .comma rest)

/-- Reads the members of an object from the name of the first of them; `read` holds those so far,
last one first. A name that comes again keeps its place and takes the later value. -/
def members : Nat → List (Text × Value) → List CodePoint → Except Stop (Value × List CodePoint)
  | 0, _, _ => .error .tooDeep
  | depth + 1, read, s =>
    match s with
    | .char '\x22' :: rest =>
      match stringBody s [] rest with
      | .error stop => .error stop
      | .ok (name, rest) =>
        match skipSpace rest with
        | .char ':' :: rest =>
          match value depth (skipSpace rest) with
          | .error stop => .error stop
          | .ok (member, rest) =>
            match skipSpace rest with
            | .char '\x7d' :: rest =>
              .ok (.object (Entries.ofPairs ((name, member) :: read).reverse), rest)
            | .char ',' :: rest => members depth ((name, member) :: read) (skipSpace rest)
            | rest => .error (.fault .comma rest)
        | rest => .error (.fault .colon rest)
    | s => .error (.fault .name s)

end

/-- Reads a whole text. Every step into a value, and to the next item or member, leaves a shorter
text or is the first step at its place, so twice the length of the text is depth enough. -/
def document (s : List CodePoint) : Except Stop Value :=
  match s with
  | .char '\uFEFF' :: _ => .error (.fault .byteOrderMark s)
  | s =>
    match value (2 * s.length + 2) (skipSpace s) with
    | .error stop => .error stop
    | .ok (read, rest) =>
      if (skipSpace rest).isEmpty then .ok read else .error (.fault .extra (skipSpace rest))

/-- Reads a text as one JSON value. -/
def read (text : List CodePoint) : Except ReadError Value :=
  (document text).mapError (ReadError.ofStop text)

end RecordRegistry.Json
