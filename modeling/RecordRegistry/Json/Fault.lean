import RecordRegistry.Text

/-!
# Faults in JSON text

A fault points at the rest of the text on which it was found, and from there at a line and a column.
A text is refused for its first fault only.
-/

namespace RecordRegistry.Json

/-- What is wrong with a text. -/
inductive Fault where
  | byteOrderMark
  | value
  | name
  | colon
  | comma
  | extra
  | unterminated
  | control
  | escape
  | unicodeEscape
deriving DecidableEq, Repr

/-- The wording of a fault. -/
def Fault.message : Fault → Text
  | byteOrderMark => "Unexpected UTF-8 BOM (decode using utf-8-sig)"
  | value => "Expecting value"
  | name => "Expecting property name enclosed in double quotes"
  | colon => "Expecting ':' delimiter"
  | comma => "Expecting ',' delimiter"
  | extra => "Extra data"
  | unterminated => "Unterminated string starting at"
  | control => "Invalid control character at"
  | escape => "Invalid \\escape"
  | unicodeEscape => "Invalid \\uXXXX escape"

/-- Why reading stopped: a fault in the text at `rest`, a whole number of too many digits, or a
text nested deeper than the reader was told to go. -/
inductive Stop where
  | fault (fault : Fault) (rest : List CodePoint)
  | tooManyDigits (count : Nat)
  | tooDeep
deriving DecidableEq, Repr

/-- The most digits that a whole number may have. -/
def digitLimit : Nat := 4300

/-- A place in a text: line and column count from one, the offset from zero. -/
structure Place where
  line : Nat
  column : Nat
  offset : Nat
deriving DecidableEq, Repr

/-- The place in `text` where `rest`, an end of it, begins. -/
def Place.ofRest (text rest : List CodePoint) : Place :=
  let before := text.take (text.length - rest.length)
  ⟨before.count (.char '\n') + 1, (before.reverse.takeWhile (· ≠ .char '\n')).length + 1,
    before.length⟩

/-- Why a text is refused. -/
inductive ReadError where
  | malformed (fault : Fault) (place : Place)
  | tooManyDigits (count : Nat)
  | tooDeep
deriving DecidableEq, Repr

namespace ReadError

/-- What stopped the reading of `text`, with the place in it. -/
def ofStop (text : List CodePoint) : Stop → ReadError
  | .fault fault rest => malformed fault (Place.ofRest text rest)
  | .tooManyDigits count => tooManyDigits count
  | .tooDeep => tooDeep

/-- The wording of a refusal. -/
def message : ReadError → Text
  | malformed fault place =>
    fault.message ++ ": line " ++ toString place.line ++ " column " ++ toString place.column ++
      " (char " ++ toString place.offset ++ ")"
  | tooManyDigits count =>
    "Exceeds the limit (" ++ toString digitLimit ++ " digits) for integer string conversion: " ++
      "value has " ++ toString count ++ " digits; use sys.set_int_max_str_digits() to increase " ++
      "the limit"
  | tooDeep => "Nesting too deep"

end ReadError

end RecordRegistry.Json
