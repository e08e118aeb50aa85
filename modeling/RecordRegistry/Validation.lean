import RecordRegistry.Schema.Export
import RecordRegistry.Text.Quoted

/-!
# Validation of records

A record is checked against a schema field by field, without any conversion of values, and all the
issues found are told at once. A record without an issue gives its declared values in the order of
the schema.
-/

namespace RecordRegistry

open Json (Value Record)

/-- What is done about members that a schema does not declare. -/
inductive UnknownFields where
  | ignore
  | reject
deriving DecidableEq, Repr

namespace UnknownFields

/-- The name of a mode. -/
def name : UnknownFields → Text
  | ignore => "ignore"
  | reject => "reject"

/-- The mode of a name. -/
def ofName? (name : Text) : Option UnknownFields :=
  if name = "ignore" then some ignore else if name = "reject" then some reject else none

/-- A mode is found by its name. -/
@[simp] theorem ofName?_name (mode : UnknownFields) : ofName? mode.name = some mode := by
  cases mode <;> rfl

/-- What has a mode is its name. -/
theorem ofName?_eq_some_iff {text : Text} {mode : UnknownFields} :
    ofName? text = some mode ↔ text = mode.name := by
  constructor
  · intro h
    rw [ofName?] at h
    split at h
    · next htext =>
      cases h
      exact htext
    · split at h
      · next htext =>
        cases h
        exact htext
      · cases h
  · rintro rfl
    exact ofName?_name mode

end UnknownFields

/-- The kinds of issues. -/
inductive IssueCode where
  | missingField
  | typeMismatch
  | invalidEnumValue
  | unknownField
deriving DecidableEq, Repr

/-- The name of a kind. -/
def IssueCode.name : IssueCode → Text
  | missingField => "MISSING_FIELD"
  | typeMismatch => "TYPE_MISMATCH"
  | invalidEnumValue => "INVALID_ENUM_VALUE"
  | unknownField => "UNKNOWN_FIELD"

/-- What is wrong with one field: a message, and as far as it applies the declared type, the type
of the value, and the values that an enum allows. -/
structure Issue where
  field : Text
  code : IssueCode
  message : Text
  expected : Option Text
  actual : Option Text
  allowed : Option (List Text)
deriving DecidableEq, Repr

namespace Issue

/-- A required field is not there. -/
def missing (field : Text) (type : FieldType) : Issue :=
  ⟨field, .missingField, "required field is missing", some type.describe, none, none⟩

/-- A value is of another type than the declared one. -/
def mismatch (field : Text) (base : BaseType) (value : Value) : Issue :=
  let wanted := match base with
    | .primitive p => p.name
    | .enum _ => "string enum value"
  ⟨field, .typeMismatch, "expected " ++ wanted ++ ", got " ++ value.schemaType,
    some base.describe, some value.schemaType, none⟩

/-- A text is none of the values of an enum. -/
def notAChoice (field : Text) (choices : Choices) (text : Text) : Issue :=
  ⟨field, .invalidEnumValue,
    "'" ++ text ++ "' is not one of " ++ Text.quotedList choices.values,
    some (BaseType.enum choices).describe, some (Value.string text).schemaType,
    some choices.values⟩

/-- A member is not declared. -/
def undeclared (field : Text) (value : Value) : Issue :=
  ⟨field, .unknownField, "field is not declared for this version", none,
    some value.schemaType, none⟩

/-- An issue as a value. -/
def toValue (issue : Issue) : Value :=
  .object [("field", .string issue.field), ("code", .string issue.code.name),
    ("message", .string issue.message), ("expected", Value.ofText? issue.expected),
    ("actual", Value.ofText? issue.actual),
    ("allowed", issue.allowed.elim .null Value.ofTexts)]

end Issue

/-- Whether a value is of a primitive type. A truth value is no number, and NaN is none. -/
def Primitive.holds : Primitive → Value → Bool
  | string, .string _ => true
  | number, .int _ => true
  | number, .real x => !x.isNaN
  | _, _ => false

/-- The issue of a value that is there. -/
def BaseType.issue? (field : Text) : BaseType → Value → Option Issue
  | primitive p, value =>
    if p.holds value then none else some (.mismatch field (primitive p) value)
  | enum choices, .string s =>
    if s ∈ choices.values then none else some (.notAChoice field choices s)
  | enum choices, value => some (.mismatch field (enum choices) value)

/-- The issue of a field in a record. -/
def Field.issue? (record : Record) (field : Field) : Option Issue :=
  match record.lookup field.name with
  | none => if field.required then some (.missing field.name field.type) else none
  | some value => field.type.base.issue? field.name value

/-- The values of a record that has no issue, in the order of its schema. -/
structure ValidRecord where
  identity : Identity
  values : Record
deriving Repr

/-- All the issues of a record. -/
structure Failure where
  identity : Identity
  issues : List Issue
deriving DecidableEq, Repr

/-- What validation says about a record. -/
inductive Outcome where
  | accepted (record : ValidRecord)
  | rejected (failure : Failure)
deriving Repr

namespace Schema

/-- The members of a record that a schema does not declare, in the order of their names. -/
def undeclared (schema : Schema) (record : Record) : Record :=
  (record.filter (·.1 ∉ schema.names)).mergeSort fun a b => a.1 ≤ b.1

/-- All the issues of a record: those of the fields in the order of the schema, then those of
undeclared members. -/
def issues (schema : Schema) (mode : UnknownFields) (record : Record) : List Issue :=
  schema.fields.filterMap (Field.issue? record) ++
    match mode with
    | .ignore => []
    | .reject => (schema.undeclared record).map fun member => .undeclared member.1 member.2

/-- The declared values of a record in the order of the schema. -/
def project (schema : Schema) (record : Record) : Record :=
  schema.names.filterMap fun name => (record.lookup name).map (name, ·)

/-- Validates a record. -/
def validate (schema : Schema) (mode : UnknownFields) (record : Record) : Outcome :=
  match schema.issues mode record with
  | [] => .accepted ⟨schema.identity, schema.project record⟩
  | issues => .rejected ⟨schema.identity, issues⟩

end Schema

/-- Why something cannot be validated at all. -/
inductive InputError where
  | unsupportedMode (mode : Text)
  | notARecord (type : Text)
deriving DecidableEq, Repr

/-- The wording of a refusal. -/
def InputError.message : InputError → Text
  | unsupportedMode mode =>
    "unknown_fields must be one of ('ignore', 'reject'), got '" ++ mode ++ "'"
  | notARecord type => "Raw record must be a mapping, got " ++ type

/-- Validates a value in the mode of a name. The mode is looked at before the value. -/
def Schema.validateValue (schema : Schema) (mode : Text) (value : Value) :
    Except InputError Outcome :=
  match UnknownFields.ofName? mode, value with
  | none, _ => .error (.unsupportedMode mode)
  | some mode, .object record => .ok (schema.validate mode record)
  | some _, value => .error (.notARecord value.typeName)

/-- A record in a supported mode can always be validated. -/
theorem Schema.validateValue_object (schema : Schema) (mode : UnknownFields) (record : Record) :
    schema.validateValue mode.name (.object record) = .ok (schema.validate mode record) := by
  simp [Schema.validateValue]

namespace ValidRecord

/-- A record as a value; numbers that are not finite become null. -/
def toValue (record : ValidRecord) : Value :=
  .object [("registry_name", Value.ofText? record.identity.registry),
    ("version_key", Value.ofText? record.identity.version),
    ("values", (Value.object record.values).finiteOnly)]

end ValidRecord

namespace Failure

/-- The fields with an issue. -/
def fields (failure : Failure) : List Text := failure.issues.map Issue.field

/-- The issues of one field. -/
def issuesFor (failure : Failure) (field : Text) : List Issue :=
  failure.issues.filter (·.field = field)

/-- All issues in one line. -/
def summary (failure : Failure) : Text :=
  Text.intercalate "; " (failure.issues.map fun issue => issue.field ++ ": " ++ issue.message)

/-- A failure as a value. -/
def toValue (failure : Failure) : Value :=
  .object [("registry_name", Value.ofText? failure.identity.registry),
    ("version_key", Value.ofText? failure.identity.version),
    ("issues", .array (failure.issues.map Issue.toValue))]

end Failure

namespace Outcome

/-- Whether a record has been accepted. -/
def ok : Outcome → Bool
  | accepted _ => true
  | rejected _ => false

/-- An outcome as a value. -/
def toValue : Outcome → Value
  | accepted record => .object [("record", record.toValue), ("failure", .null)]
  | rejected failure => .object [("record", .null), ("failure", failure.toValue)]

end Outcome

end RecordRegistry
