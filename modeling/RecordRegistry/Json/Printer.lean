import RecordRegistry.Json.Value
import RecordRegistry.Number.Layout
import RecordRegistry.Text.Hex

/-!
# JSON text

Values are printed on one line without blanks, or indented with one item a line. The canonical text
of a value is its line with the members of every object in the order of their names, so that it does
not depend on the order in which they came.
-/

namespace RecordRegistry.Json

/-- Numbers in JSON text: in full from 0.0001 to below 10 ^ 16, two digits in a power of ten. -/
def layout : Layout := ⟨-3, 16, 2, "Infinity", "NaN"⟩

/-- A whole number in base ten. -/
def intText (n : Int) : List Char :=
  (if n < 0 then ['-'] else []) ++ Nat.toDigits 10 n.natAbs

/-- One character inside quotation marks. Only the marks themselves, the backslash and control
characters are escaped. -/
def escape (c : CodePoint) : List CodePoint :=
  if c = .char '\x22' then ['\\', '\x22']
  else if c = .char '\\' then ['\\', '\\']
  else if c = .char '\n' then ['\\', 'n']
  else if c = .char '\r' then ['\\', 'r']
  else if c = .char '\t' then ['\\', 't']
  else if c = .char '\x08' then ['\\', 'b']
  else if c = .char '\x0c' then ['\\', 'f']
  else if c.toNat < 0x20 then .char '\\' :: .char 'u' :: Text.hex 4 c.toNat
  else [c]

/-- A text between quotation marks. -/
def stringText (s : Text) : List CodePoint :=
  .char '\x22' :: s.toList.flatMap escape ++ [.char '\x22']

namespace Value

mutual

/-- A value on one line, without blanks. -/
def compact : Value → List CodePoint
  | null => ['n', 'u', 'l', 'l']
  | bool true => ['t', 'r', 'u', 'e']
  | bool false => ['f', 'a', 'l', 's', 'e']
  | int n => (intText n).map .char
  | real x => (x.text layout).map .char
  | string s => stringText s
  | array [] => ['[', ']']
  | array (item :: items) => .char '[' :: compact item ++ compactItems items
  | object [] => ['\x7b', '\x7d']
  | object ((name, value) :: members) =>
    .char '\x7b' :: stringText name ++ .char ':' :: compact value ++ compactMembers members

/-- The items of an array after its first one, up to the closing bracket. -/
def compactItems : List Value → List CodePoint
  | [] => [']']
  | item :: items => .char ',' :: compact item ++ compactItems items

/-- The members of an object after its first one, up to the closing brace. -/
def compactMembers : List (Text × Value) → List CodePoint
  | [] => ['\x7d']
  | (name, value) :: members =>
    .char ',' :: stringText name ++ .char ':' :: compact value ++ compactMembers members

end

mutual

/-- A value with the members of every object in the order of their names. -/
def sorted : Value → Value
  | array items => array (sortedItems items)
  | object members => object ((sortedMembers members).mergeSort fun a b => a.1 ≤ b.1)
  | value => value

/-- Every item sorted inside. -/
def sortedItems : List Value → List Value
  | [] => []
  | item :: items => sorted item :: sortedItems items

/-- Every member sorted inside, the members themselves in their old order. -/
def sortedMembers : List (Text × Value) → List (Text × Value)
  | [] => []
  | (name, value) :: members => (name, sorted value) :: sortedMembers members

end

theorem sortedItems_map (items : List Value) : sortedItems items = items.map sorted := by
  induction items with
  | nil => rfl
  | cons item items ih => rw [sortedItems, ih, List.map_cons]

theorem sortedMembers_map (members : List (Text × Value)) :
    sortedMembers members = members.map fun member => (member.1, member.2.sorted) := by
  induction members with
  | nil => rfl
  | cons member members ih => rw [sortedMembers, ih, List.map_cons]

/-- The canonical text of a value. -/
def canonical (value : Value) : Text := Text.ofList value.sorted.compact

/-- The start of a line at a depth: two blanks a level. -/
def newLine (depth : Nat) : List CodePoint := .char '\n' :: List.replicate (2 * depth) ' '

mutual

/-- A value with one item or member a line, those of a value at `depth` one level deeper. Nothing
stands between the brackets of an empty array or object. -/
def indented (depth : Nat) : Value → List CodePoint
  | array (item :: items) =>
    .char '[' :: newLine (depth + 1) ++ indented (depth + 1) item ++ indentedItems depth items
  | object ((name, value) :: members) =>
    .char '\x7b' :: newLine (depth + 1) ++ stringText name ++ .char ':' :: .char ' ' ::
      indented (depth + 1) value ++ indentedMembers depth members
  | array [] => ['[', ']']
  | object [] => ['\x7b', '\x7d']
  | null => ['n', 'u', 'l', 'l']
  | bool true => ['t', 'r', 'u', 'e']
  | bool false => ['f', 'a', 'l', 's', 'e']
  | int n => (intText n).map .char
  | real x => (x.text layout).map .char
  | string s => stringText s

/-- The items of an indented array after its first one, up to the closing bracket. -/
def indentedItems (depth : Nat) : List Value → List CodePoint
  | [] => newLine depth ++ [.char ']']
  | item :: items =>
    .char ',' :: newLine (depth + 1) ++ indented (depth + 1) item ++ indentedItems depth items

/-- The members of an indented object after its first one, up to the closing brace. -/
def indentedMembers (depth : Nat) : List (Text × Value) → List CodePoint
  | [] => newLine depth ++ [.char '\x7d']
  | (name, value) :: members =>
    .char ',' :: newLine (depth + 1) ++ stringText name ++ .char ':' :: .char ' ' ::
      indented (depth + 1) value ++ indentedMembers depth members

end

/-- The indented text of a value. -/
def pretty (value : Value) : Text := Text.ofList (value.indented 0)

end Value

end RecordRegistry.Json
