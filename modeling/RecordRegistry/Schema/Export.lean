import RecordRegistry.Json.Fingerprint
import RecordRegistry.Schema

/-!
# What is written about a schema

Types have a short description for messages, schemas have a declaration as a JSON value from which
they can be read again, and an export in the JSON Schema language for other tools. The fingerprint
of a schema is that of its fields alone.
-/

namespace RecordRegistry

open Json (Value)

/-- The name of a primitive type. -/
def Primitive.name : Primitive → Text
  | string => "string"
  | number => "number"

namespace BaseType

/-- A type in a few words. -/
def describe : BaseType → Text
  | primitive p => p.name
  | enum choices => "enum\x7b" ++ Text.intercalate "," choices.values ++ "\x7d"

/-- The declaration of a type. -/
def toValue : BaseType → Value
  | primitive p => .object [("kind", .string "primitive"), ("primitive", .string p.name)]
  | enum choices =>
    .object [("kind", .string "enum"), ("allowed", Value.ofTexts choices.values)]

/-- A type in the JSON Schema language. -/
def jsonSchema : BaseType → Value
  | primitive p => .object [("type", .string p.name)]
  | enum choices =>
    .object [("type", .string "string"), ("enum", Value.ofTexts choices.values)]

end BaseType

namespace FieldType

/-- A type in a few words. -/
def describe : FieldType → Text
  | plain base => base.describe
  | optional base => "optional " ++ base.describe

/-- The declaration of a type. -/
def toValue : FieldType → Value
  | plain base => base.toValue
  | optional base => .object [("kind", .string "optional"), ("inner", base.toValue)]

/-- A type in the JSON Schema language, where only the object as a whole says that a member may
be left out. -/
def jsonSchema (type : FieldType) : Value := type.base.jsonSchema

end FieldType

/-- The declaration of a field. -/
def Field.toValue (field : Field) : Value :=
  .object [("name", .string field.name), ("type", field.type.toValue)]

namespace Schema

/-- The declarations of the fields. -/
def fieldsValue (schema : Schema) : Value := .array (schema.fields.map Field.toValue)

/-- The declaration of a schema. -/
def toValue (schema : Schema) : Value :=
  .object [("field_specs", schema.fieldsValue),
    ("registry_name", Value.ofText? schema.identity.registry),
    ("version_key", Value.ofText? schema.identity.version),
    ("description", Value.ofText? schema.description)]

/-- The fingerprint of the fields, which names and values with surrogates keep from having one. -/
def fingerprint (schema : Schema) : Except Text.SurrogateError Text := schema.fieldsValue.fingerprint

/-- The title of an export: the identity, when both of its parts have text. -/
def title (schema : Schema) : Text :=
  let registry := schema.identity.registry.getD ""
  let version := schema.identity.version.getD ""
  if registry = "" ∨ version = "" then "RecordSpec" else registry ++ "@" ++ version

/-- A schema in the JSON Schema language. Members beyond the declared ones are allowed or not as
`additional` says. -/
def jsonSchema (schema : Schema) (additional : Bool) : Value :=
  let description := schema.description.getD ""
  let members : List (Text × Value) := [
    ("$schema", .string "https://json-schema.org/draft/2020-12/schema"),
    ("title", .string schema.title),
    ("type", .string "object"),
    ("properties", .object (schema.fields.map fun field => (field.name, field.type.jsonSchema))),
    ("required", Value.ofTexts schema.requiredNames),
    ("additionalProperties", .bool additional)]
  if description = "" then .object members
  else .object (members ++ [(("description" : Text), Value.string description)])

end Schema

end RecordRegistry
