import Mathlib.Algebra.Group.Nat.Defs
import RecordRegistry.Proofs.Verdict

/-!
# Instances of exported schemas

`Value.isInstanceOf` reads a value as a schema of the JSON Schema language and says which values are
its instances. It knows nothing of record schemas, so that the records which validation accepts can
be compared with the instances of the export.
-/

namespace RecordRegistry

open Json (Value Record)

namespace Double

/-- Whether two numbers are equal as numbers. NaN equals nothing, and both zeros are one. -/
def equal : Double → Double → Bool
  | finite negative rank, finite other rank' => rank = rank' && (negative = other || rank.val = 0)
  | infinity negative, infinity other => negative = other
  | _, _ => false

/-- Whether a number is equal to a whole number. -/
def equalInt (n : Int) : Double → Bool
  | finite negative rank =>
      significand rank * 2 ^ (exponent rank).toNat = n.natAbs * 2 ^ (-exponent rank).toNat &&
        (negative = decide (n < 0) || n = 0)
  | _ => false

end Double

namespace Json.Value

mutual

/-- Equality in the schema language: that of numbers is one of quantities, and the order of
members has no part in that of objects. -/
def equal : Value → Value → Bool
  | null, null => true
  | bool b, bool c => b = c
  | int n, int m => n = m
  | int n, real x => x.equalInt n
  | real x, int n => x.equalInt n
  | real x, real y => x.equal y
  | string s, string t => s = t
  | array items, array others => equalItems items others
  | object members, object others =>
      members.length = others.length && equalMembers members others
  | _, _ => false

/-- Items equal one by one. -/
def equalItems : List Value → List Value → Bool
  | [], [] => true
  | item :: items, other :: others => equal item other && equalItems items others
  | _, _ => false

/-- Members each of which has an equal one of its name among others. -/
def equalMembers : List (Text × Value) → List (Text × Value) → Bool
  | [], _ => true
  | (name, value) :: members, others =>
      (match others.lookup name with
        | some other => equal value other
        | none => false) && equalMembers members others

end

/-- The types of the schema language. -/
def isOfType (type : Text) : Value → Bool
  | null => type = "null"
  | bool _ => type = "boolean"
  | int _ => type = "number"
  | real x => type = "number" && x != .nan
  | string _ => type = "string"
  | array _ => type = "array"
  | object _ => type = "object"

/-- Whether a value, if it is an object, has a member of the name that `item` gives. -/
def hasRequired (value item : Value) : Bool :=
  match value, item with
  | object members, string name => Entries.has members name
  | object _, _ => false
  | _, _ => true

/-- The names for which a schema has a property. -/
def propertyNames (keywords : List (Text × Value)) : List Text :=
  match keywords.lookup ("properties" : Text) with
  | some (object properties) => Entries.names properties
  | _ => []

mutual

/-- Whether a value is an instance of a schema. -/
def isInstanceOf (value : Value) : Value → Bool
  | bool allowed => allowed
  | object keywords => meetsKeywords value (propertyNames keywords) keywords
  | _ => false
termination_by structural schema => schema

/-- Whether a value meets every keyword of a schema with properties of the given names. -/
def meetsKeywords (value : Value) (declared : List Text) : List (Text × Value) → Bool
  | [] => true
  | keyword :: keywords =>
      meetsKeyword value keyword && meetsAdditional value declared keyword &&
        meetsKeywords value declared keywords
termination_by structural keywords => keywords

/-- Whether a value meets a keyword. Those of other names are annotations. -/
def meetsKeyword (value : Value) : Text × Value → Bool
  | (name, string type) => name ≠ "type" || value.isOfType type
  | (name, array items) =>
      (name ≠ "enum" || items.any value.equal) &&
        (name ≠ "required" || items.all value.hasRequired)
  | (name, object properties) => name ≠ "properties" || meetsProperties value properties
  | _ => true
termination_by structural keyword => keyword

/-- Whether the members of an object for which there is no property meet a keyword that is about
them. -/
def meetsAdditional (value : Value) (declared : List Text) : Text × Value → Bool
  | (name, additional) =>
      name ≠ "additionalProperties" ||
        match value with
        | object members =>
            members.all fun member => member.1 ∈ declared || isInstanceOf member.2 additional
        | _ => true
termination_by structural keyword => keyword

/-- Whether the members of an object for which there is a property are instances of its schema. -/
def meetsProperties (value : Value) : List (Text × Value) → Bool
  | [] => true
  | (name, property) :: properties =>
      (match value with
        | object members =>
            match members.lookup name with
            | some member => isInstanceOf member property
            | none => true
        | _ => true) && meetsProperties value properties
termination_by structural properties => properties

end

theorem equal_string_iff (s : Text) (value : Value) :
    value.equal (string s) = true ↔ value = string s := by
  cases value <;> simp [equal]

theorem meetsProperties_iff (record : Record) (properties : List (Text × Value)) :
    (object record).meetsProperties properties = true ↔
      ∀ property ∈ properties, ∀ value, record.lookup property.1 = some value →
        value.isInstanceOf property.2 = true := by
  induction properties with
  | nil => simp [meetsProperties]
  | cons property properties ih =>
      obtain ⟨name, property⟩ := property
      rw [meetsProperties, Bool.and_eq_true, ih, List.forall_mem_cons]
      refine and_congr_left' ?_
      cases record.lookup name with
      | none => simp
      | some value => simp

end Json.Value

/-- A value has no issue exactly when it is an instance of the export of its type. -/
theorem BaseType.isInstanceOf_jsonSchema_iff (name : Text) (base : BaseType) (value : Value) :
    value.isInstanceOf base.jsonSchema = true ↔ base.issue? name value = none := by
  cases base with
  | primitive p =>
      cases p <;> cases value <;>
        simp [jsonSchema, issue?, Primitive.name, Primitive.holds, Value.isInstanceOf,
          Value.meetsKeywords, Value.meetsKeyword, Value.meetsAdditional, Value.isOfType,
          ← Double.isNaN_iff]
  | enum choices =>
      cases value <;>
        simp [jsonSchema, issue?, Value.isInstanceOf, Value.meetsKeywords, Value.meetsKeyword,
          Value.meetsAdditional, Value.isOfType, Value.ofTexts, Value.equal_string_iff]

/-- A field has no issue exactly when its value, if there is one, has none, and a needed value is
there. -/
theorem Field.issue?_eq_none_iff (record : Record) (field : Field) :
    field.issue? record = none ↔
      (∀ value, record.lookup field.name = some value →
        value.isInstanceOf field.type.jsonSchema = true) ∧
      (field.required = true → Entries.has record field.name = true) := by
  cases hlookup : record.lookup field.name with
  | none =>
      rw [issue?_of_lookup_eq_none hlookup]
      simp [Entries.has, hlookup]
  | some value =>
      rw [issue?_of_lookup_eq_some hlookup, FieldType.jsonSchema,
        ← BaseType.isInstanceOf_jsonSchema_iff]
      simp [Entries.has, hlookup]

namespace Schema

/-- The keyword for needed members asks for the fields that a record needs. -/
theorem all_hasRequired_iff (schema : Schema) (record : Record) :
    (schema.requiredNames.map Value.string).all (Value.object record).hasRequired = true ↔
      ∀ field ∈ schema.fields, field.required = true → Entries.has record field.name = true := by
  simp [requiredNames, Value.hasRequired, ← Bool.not_eq_true, imp_iff_not_or]

/-- The instances of an export among records, keyword by keyword. -/
theorem isInstanceOf_jsonSchema_iff (schema : Schema) (additional : Bool) (record : Record) :
    (Value.object record).isInstanceOf (schema.jsonSchema additional) = true ↔
      (∀ field ∈ schema.fields, ∀ value, record.lookup field.name = some value →
        value.isInstanceOf field.type.jsonSchema = true) ∧
      (∀ field ∈ schema.fields, field.required = true → Entries.has record field.name = true) ∧
      ∀ member ∈ record, member.1 ∈ schema.names ∨ additional = true := by
  have hnames : Entries.names (schema.fields.map fun field => (field.name, field.type.jsonSchema)) =
      schema.names := by
    simp [Entries.names, names, Function.comp_def]
  have hproperties : (Value.object record).meetsProperties
      (schema.fields.map fun field => (field.name, field.type.jsonSchema)) = true ↔
      ∀ field ∈ schema.fields, ∀ value, record.lookup field.name = some value →
        value.isInstanceOf field.type.jsonSchema = true := by
    rw [Value.meetsProperties_iff, List.forall_mem_map]
  have hrequired := schema.all_hasRequired_iff record
  -- the description, which an export may have, is an annotation
  rw [jsonSchema]
  split <;>
    simp only [Value.isInstanceOf, Value.propertyNames, Value.meetsKeywords, Value.meetsKeyword,
      Value.meetsAdditional, Value.isOfType, Value.ofTexts, List.lookup_cons, List.cons_append,
      List.nil_append, List.all_eq_true, Bool.and_eq_true, Bool.or_eq_true, decide_eq_true_eq,
      Text.ofString_beq, Text.ofString_inj, String.reduceBEq, String.reduceEq, ne_eq,
      not_true_eq_false, not_false_eq_true, false_or, true_or, true_and, and_true, hnames,
      hproperties, hrequired]

/--
Validation and export agree: a record is accepted exactly when it is an instance of the exported
schema, the one that allows additional members where undeclared ones are ignored, and the one that
forbids them where they are refused.
-/
theorem ok_validate_iff_isInstanceOf (schema : Schema) (record : Record) :
    ((schema.validate .ignore record).ok = true ↔
      (Value.object record).isInstanceOf (schema.jsonSchema true) = true) ∧
    ((schema.validate .reject record).ok = true ↔
      (Value.object record).isInstanceOf (schema.jsonSchema false) = true) := by
  simp only [ok_validate_iff, issues_eq_nil_iff, isInstanceOf_jsonSchema_iff,
    Field.issue?_eq_none_iff]
  constructor
  · simp [forall_and]
  · simp [forall_and, and_assoc]

end Schema

end RecordRegistry
