import RecordRegistry.Text

/-!
# Blank characters

The characters that are trimmed from both ends of a text: the white space of Unicode and the four
information separators U+001C to U+001F. The zero-width space U+200B is not among them.
-/

namespace RecordRegistry.Text

/-- The blank code points, as ascending closed ranges. -/
def blankRanges : List (Nat × Nat) := [
    (0x0009, 0x000D), (0x001C, 0x0020), (0x0085, 0x0085), (0x00A0, 0x00A0), (0x1680, 0x1680),
    (0x2000, 0x200A), (0x2028, 0x2029), (0x202F, 0x202F), (0x205F, 0x205F), (0x3000, 0x3000)]

/-- A code point is blank when a blank range holds its number. -/
def isBlank (c : CodePoint) : Bool :=
  blankRanges.any fun range => range.1 ≤ c.toNat && c.toNat ≤ range.2

/-- A text without the blanks at its two ends. -/
def trim (s : Text) : Text :=
  ofList ((s.toList.dropWhile isBlank).reverse.dropWhile isBlank).reverse

end RecordRegistry.Text
