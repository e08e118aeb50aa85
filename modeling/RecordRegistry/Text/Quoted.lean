import RecordRegistry.Text.Hex
import RecordRegistry.Text.Unprintable

/-!
# Quoted text in messages

Messages show names and values between quotation marks: single ones, or double ones when only
that spares an escape. What would break the line or stay invisible is shown by its code point.
-/

namespace RecordRegistry.Text

/-- Double marks are taken for a text that holds a single mark and no double one. -/
def quoteMark (s : List CodePoint) : CodePoint :=
  if s.contains '\x27' && !s.contains '\x22' then '\x22' else '\x27'

/-- How one character is shown between marks `mark`. -/
def showQuoted (mark c : CodePoint) : List CodePoint :=
  if c = mark ∨ c = .char '\\' then ['\\', c]
  else if c = .char '\n' then ['\\', 'n']
  else if c = .char '\r' then ['\\', 'r']
  else if c = .char '\t' then ['\\', 't']
  else if isPrintable c then [c]
  else if c.toNat ≤ 0xFF then .char '\\' :: .char 'x' :: hex 2 c.toNat
  else if c.toNat ≤ 0xFFFF then .char '\\' :: .char 'u' :: hex 4 c.toNat
  else .char '\\' :: .char 'U' :: hex 8 c.toNat

/-- A text between quotation marks. -/
def quoted (s : Text) : Text :=
  let mark := quoteMark s.toList
  Text.ofList (mark :: s.toList.flatMap (showQuoted mark) ++ [mark])

/-- Quoted texts in square brackets, set apart by commas. -/
def quotedList (texts : List Text) : Text :=
  "[" ++ Text.intercalate ", " (texts.map quoted) ++ "]"

end RecordRegistry.Text
