import RecordRegistry.Json.Shown
import RecordRegistry.Problem
import RecordRegistry.Schema
import RecordRegistry.Text.Repeated

/-!
# Reading declarations

A declaration is a JSON value that describes a field type, a field or a whole schema. It is read
as a whole: every problem in it is found, the declared members of an object in their order first
and then the members that nobody declared.
-/

namespace RecordRegistry.Declaration

open Json (Value Record)
open Text (Sightings)

variable {α : Type}

/-- The texts that occur more than once, each of them once, in ascending order. -/
def repeated (texts : List Text) : List Text :=
  (Sightings.ofTexts texts).repeated.mergeSort fun a b => a ≤ b

/-- A text. -/
def text : Value → Checked Text
  | .string s => .ok s
  | _ => .fail .notAText

/-- A text or null. -/
def optionalText : Value → Checked (Option Text)
  | .null => .ok none
  | value => (text value).map some

/-- One of the given texts. -/
def among (expected : List Text) : Value → Checked Text
  | .string s => if s ∈ expected then .ok s else .fail (.notAmong expected)
  | _ => .fail (.notAmong expected)

/-- The items of an array from `index` on, every one of them checked. -/
def items (check : Value → Checked α) (index : Nat) : List Value → Checked (List α)
  | [] => .ok []
  | item :: rest =>
    (((check item).within (.index index)).both (items check (index + 1) rest)).map
      fun pair => pair.1 :: pair.2

/-- An array. -/
def list (check : Value → Checked α) : Value → Checked (List α)
  | .array values => items check 0 values
  | _ => .fail .notAList

/-- An object that declares a model of the given name. -/
def object (model : Text) (check : Record → Checked α) : Value → Checked α
  | .object members => check members
  | _ => .fail (.notAnObject model)

/-- A member that must be there. -/
def required (name : Text) (check : Value → Checked α) (members : Record) : Checked α :=
  match members.lookup name with
  | none => (Checked.fail .missing).within (.key name)
  | some value => (check value).within (.key name)

/-- A member that may be missing, with what a missing one means. -/
def optional (name : Text) (missing : α) (check : Value → Checked α) (members : Record) :
    Checked α :=
  match members.lookup name with
  | none => .ok missing
  | some value => (check value).within (.key name)

/-- No members but those of the given names. -/
def noOthers (names : List Text) (members : Record) : Checked Unit :=
  let others := members.filter (·.1 ∉ names)
  if others.isEmpty then .ok ()
  else .error (others.map fun member => ⟨[.key member.1], .undeclared⟩)

/-- The member that says which kind of type an object declares, if it is there. -/
def kind (expected : Text) (members : Record) : Checked Text :=
  optional "kind" expected (among [expected]) members

/-- The values of an enum. -/
def choices (value : Value) : Checked Choices :=
  (list text value).andThen fun values =>
    if h : values = [] then .fail .noChoices
    else if h' : (Sightings.ofTexts values).repeated = [] then
      .ok ⟨values, h, Sightings.repeated_ofTexts_eq_nil_iff.mp h'⟩
    else .fail (.repeatedChoices (repeated values))

/-- A primitive type by its name. -/
def primitiveName (value : Value) : Checked Primitive :=
  (among ["string", "number"] value).map fun name : Text =>
    if name = "string" then .string else .number

/-- A primitive type. -/
def primitiveType (members : Record) : Checked BaseType :=
  ((kind "primitive" members).both ((required "primitive" primitiveName members).both
    (noOthers ["kind", "primitive"] members))).map fun parts => .primitive parts.2.1

/-- An enum. -/
def enumType (members : Record) : Checked BaseType :=
  ((kind "enum" members).both ((required "allowed" choices members).both
    (noOthers ["kind", "allowed"] members))).map fun parts => .enum parts.2.1

/-- The base of a type that is not optional. -/
def unwrapped : FieldType → Checked BaseType
  | .plain base => .ok base
  | .optional _ => .fail .nestedOptional

/-- An optional type, given the type that it wraps, if it names one. -/
def optionalType (inner : Option (Checked FieldType)) (members : Record) : Checked FieldType :=
  let base : Checked BaseType :=
    match inner with
    | none => .fail .missing
    | some type => type.andThen unwrapped
  ((kind "optional" members).both ((base.within (.key "inner")).both
    (noOthers ["kind", "inner"] members))).map fun parts => .optional parts.2.1

mutual

/-- The type of a field, of the kind that it names. -/
def fieldType : Value → Checked FieldType
  | .object members =>
    match members.lookup ("kind" : Text) with
    | none => .fail .noKind
    | some (.string name) =>
      if name = "primitive" then
        ((primitiveType members).map FieldType.plain).within (.key "primitive")
      else if name = "enum" then ((enumType members).map FieldType.plain).within (.key "enum")
      else if name = "optional" then
        (optionalType (innerType members) members).within (.key "optional")
      else .fail (.unknownKind name)
    | some other => .fail (.unknownKind other.shownPlain)
  | _ => .fail .notAType

/-- The type that an optional type wraps, if there is one among its members. -/
def innerType : List (Text × Value) → Option (Checked FieldType)
  | [] => none
  | (name, value) :: rest => if name = "inner" then some (fieldType value) else innerType rest

end

/-- A name that is not empty. -/
def fieldName (value : Value) : Checked { name : Text // name ≠ "" } :=
  (text value).andThen fun name => if h : name = "" then .fail .emptyName else .ok ⟨name, h⟩

/-- A field. -/
def field (value : Value) : Checked Field :=
  object "FieldSpec" (fun members =>
    ((required "name" fieldName members).both ((required "type" fieldType members).both
      (noOthers ["name", "type"] members))).map fun parts =>
        ⟨parts.1.1, parts.1.2, parts.2.1⟩) value

/-- Fields with names that differ from each other. -/
def distinct (fields : List Field) :
    Checked { fields : List Field // (fields.map Field.name).Nodup } :=
  if h : (Sightings.ofTexts (fields.map Field.name)).repeated = [] then
    .ok ⟨fields, Sightings.repeated_ofTexts_eq_nil_iff.mp h⟩
  else .fail (.repeatedNames (repeated (fields.map Field.name)))

/-- A schema. -/
def schema (value : Value) : Checked Schema :=
  object "RecordSpec" (fun members =>
    ((required "field_specs" (fun value => (list field value).andThen distinct) members).both
      ((optional "registry_name" none optionalText members).both
        ((optional "version_key" none optionalText members).both
          ((optional "description" none optionalText members).both
            (noOthers ["field_specs", "registry_name", "version_key", "description"]
              members))))).map fun parts =>
      ⟨parts.1.1, parts.1.2, ⟨parts.2.1, parts.2.2.1⟩, parts.2.2.2.1⟩) value

end Declaration

open Json (Value)

/-- A primitive type that stands alone and may leave its kind unsaid. -/
def BaseType.primitiveOfValue (value : Value) : Except Refusal BaseType :=
  (Declaration.object "PrimitiveType" Declaration.primitiveType value).mapError
    (⟨"PrimitiveType", ·⟩)

/-- An enum that stands alone and may leave its kind unsaid. -/
def BaseType.enumOfValue (value : Value) : Except Refusal BaseType :=
  (Declaration.object "EnumType" Declaration.enumType value).mapError (⟨"EnumType", ·⟩)

/-- An optional type that stands alone and may leave its kind unsaid. -/
def FieldType.optionalOfValue (value : Value) : Except Refusal FieldType :=
  (Declaration.object "OptionalType"
    (fun members => Declaration.optionalType (Declaration.innerType members) members)
    value).mapError (⟨"OptionalType", ·⟩)

/-- The field that a value declares. -/
def Field.ofValue (value : Value) : Except Refusal Field :=
  (Declaration.field value).mapError (⟨"FieldSpec", ·⟩)

/-- The schema that a value declares. -/
def Schema.ofValue (value : Value) : Except Refusal Schema :=
  (Declaration.schema value).mapError (⟨"RecordSpec", ·⟩)

/-- A required text field. -/
def Field.ofName (name : Value) : Except Refusal Field :=
  (((Declaration.fieldName name).within (.key "name")).map fun name =>
    ⟨name.1, name.2, .plain (.primitive .string)⟩).mapError (⟨"FieldSpec", ·⟩)

/-- A schema of required text fields. The fields are made one after the other, so the first name
that makes none is the only one told of. -/
def Schema.ofNames (names : List Value) (description : Value) : Except Refusal Schema :=
  match names.mapM Field.ofName with
  | .error refusal => .error refusal
  | .ok fields =>
    ((((Declaration.distinct fields).within (.key "field_specs")).both
      ((Declaration.optionalText description).within (.key "description"))).map fun parts =>
        ⟨parts.1.1, parts.1.2, Identity.unknown, parts.2⟩).mapError (⟨"RecordSpec", ·⟩)

end RecordRegistry
