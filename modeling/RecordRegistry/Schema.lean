import RecordRegistry.Text

/-!
# Record schemas

A schema lists the fields of a record in order, each with a name and a type, and carries the
identity under which it is registered. The types hold what every schema keeps: names are not empty
and differ from each other, and an enum has choices, each of them once.
-/

namespace RecordRegistry

/-- The types without any choice of values. -/
inductive Primitive where
  | string
  | number
deriving DecidableEq, Repr

/-- The values that an enum allows, in the order of their declaration. -/
structure Choices where
  values : List Text
  values_ne_nil : values ≠ []
  nodup : values.Nodup
deriving DecidableEq, Repr

/-- The type of a value that is there. -/
inductive BaseType where
  | primitive (primitive : Primitive)
  | enum (choices : Choices)
deriving DecidableEq, Repr

/-- The type of a field: its value must be there, or may be left out. -/
inductive FieldType where
  | plain (base : BaseType)
  | optional (base : BaseType)
deriving DecidableEq, Repr

/-- The type of the value of a field, if it has one. -/
def FieldType.base : FieldType → BaseType
  | plain base => base
  | optional base => base

/-- A named field of a record. -/
structure Field where
  name : Text
  name_ne_empty : name ≠ ""
  type : FieldType
deriving DecidableEq, Repr

/-- Whether a record needs a field. -/
def Field.required (field : Field) : Bool :=
  match field.type with
  | .plain _ => true
  | .optional _ => false

/-- The registry of a schema and its version there, as far as they are known. -/
structure Identity where
  registry : Option Text
  version : Option Text
deriving DecidableEq, Repr

namespace Identity

/-- The identity of what has been given none. -/
def unknown : Identity := ⟨none, none⟩

/-- The identity of a version of a registry. -/
def of (registry version : Text) : Identity := ⟨some registry, some version⟩

end Identity

/-- The declared shape of a record, with its identity and a description. -/
structure Schema where
  fields : List Field
  nodup : (fields.map Field.name).Nodup
  identity : Identity
  description : Option Text
deriving DecidableEq, Repr

namespace Schema

/-- The names of the fields. -/
def names (schema : Schema) : List Text := schema.fields.map Field.name

/-- The names of the fields that a record needs. -/
def requiredNames (schema : Schema) : List Text :=
  (schema.fields.filter Field.required).map Field.name

/-- The field of a name. -/
def field? (schema : Schema) (name : Text) : Option Field :=
  schema.fields.find? (·.name = name)

/-- Two schemas have the same shape when they declare the same fields in the same order. -/
def sameShape (a b : Schema) : Bool := a.fields = b.fields

/-- A schema under the identity of a version of a registry. -/
def identified (schema : Schema) (registry version : Text) : Schema :=
  { schema with identity := Identity.of registry version }

end Schema

end RecordRegistry
