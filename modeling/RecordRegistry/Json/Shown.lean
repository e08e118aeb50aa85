import RecordRegistry.Json.Printer
import RecordRegistry.Text.Quoted

/-!
# Values in messages

A message about an unexpected value shows it: texts stand between quotation marks unless the value
is nothing but a text, and the constants and numbers that are not finite have names of their own.
-/

namespace RecordRegistry.Json

/-- Numbers in messages: in full from 0.0001 to below 10 ^ 16, two digits in a power of ten. -/
def shownLayout : Layout := ⟨-3, 16, 2, "inf", "nan"⟩

namespace Value

mutual

/-- A value inside a message. -/
def shown : Value → Text
  | null => "None"
  | bool true => "True"
  | bool false => "False"
  | int n => Text.ofList ((intText n).map .char)
  | real x => Text.ofList ((x.text shownLayout).map .char)
  | string s => Text.quoted s
  | array items => "[" ++ Text.intercalate ", " (shownItems items) ++ "]"
  | object members => "\x7b" ++ Text.intercalate ", " (shownMembers members) ++ "\x7d"

/-- The items of an array, one by one. -/
def shownItems : List Value → List Text
  | [] => []
  | item :: items => item.shown :: shownItems items

/-- The members of an object, one by one. -/
def shownMembers : List (Text × Value) → List Text
  | [] => []
  | (name, value) :: members => (Text.quoted name ++ ": " ++ value.shown) :: shownMembers members

end

/-- A value that is a message's subject: a text is shown as it is. -/
def shownPlain : Value → Text
  | string s => s
  | value => value.shown

end Value

end RecordRegistry.Json
