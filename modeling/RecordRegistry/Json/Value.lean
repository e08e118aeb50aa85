import RecordRegistry.Entries
import RecordRegistry.Number.Double

/-!
# JSON values

Whole numbers of any size are kept apart from double-precision ones, and the members of an object
keep their order. A value has two names for its type: the one that record schemas use, and the one
that messages about unexpected data use.
-/

namespace RecordRegistry.Json

/-- A JSON value. The reader gives every object distinct names. -/
inductive Value where
  | null
  | bool (b : Bool)
  | int (n : Int)
  | real (x : Double)
  | string (s : Text)
  | array (items : List Value)
  | object (members : List (Text × Value))
deriving Repr

namespace Value

/-- The type of a value in the words of record schemas, where NaN is no number. -/
def schemaType : Value → Text
  | null => "null"
  | bool _ => "boolean"
  | int _ => "number"
  | real x => if x.isNaN then "NaN" else "number"
  | string _ => "string"
  | array _ => "list"
  | object _ => "dict"

/-- The type of a value in messages about data of the wrong shape. -/
def typeName : Value → Text
  | null => "NoneType"
  | bool _ => "bool"
  | int _ => "int"
  | real _ => "float"
  | string _ => "str"
  | array _ => "list"
  | object _ => "dict"

/-- A text that may be missing; a missing one is null. -/
def ofText? (text : Option Text) : Value := text.elim null string

/-- An array of texts. -/
def ofTexts (texts : List Text) : Value := array (texts.map string)

mutual

/-- A value in which null stands for every number that is not finite. -/
def finiteOnly : Value → Value
  | real x => if x.isFinite then real x else null
  | array items => array (finiteItems items)
  | object members => object (finiteMembers members)
  | value => value

/-- The items of an array, one by one. -/
def finiteItems : List Value → List Value
  | [] => []
  | item :: items => finiteOnly item :: finiteItems items

/-- The members of an object, one by one. -/
def finiteMembers : List (Text × Value) → List (Text × Value)
  | [] => []
  | (name, value) :: members => (name, finiteOnly value) :: finiteMembers members

end

end Value

/-- A record: the members of an object. -/
abbrev Record := Entries Value

end RecordRegistry.Json
