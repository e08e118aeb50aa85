import Mathlib.Data.List.Forall2
import RecordRegistry.Proofs.Accepted

/-!
# Weaker schemas

A type is weaker than another one when it asks for less: an enum with more choices, any text instead
of an enum, a value that may be left out. A schema of the same names with weaker types rejects no
more than the old one, and neither does one with further optional fields for records that have no
undeclared members.
-/

namespace RecordRegistry

open Json (Value Record)

/-- A base type is weaker than itself, an enum than those with some of its choices, and the type of
all texts than every enum. -/
inductive BaseType.Weaker : BaseType → BaseType → Prop
  | refl (base : BaseType) : Weaker base base
  | enum {choices others : Choices} (h : others.values ⊆ choices.values) :
      Weaker (enum choices) (enum others)
  | string (choices : Choices) : Weaker (primitive .string) (enum choices)

/-- The type of a field is weaker when its base type is and when it may be left out. What can be
left out is not weakened to what cannot. -/
inductive FieldType.Weaker : FieldType → FieldType → Prop
  | plain {base other : BaseType} (h : base.Weaker other) : Weaker (plain base) (plain other)
  | optionalOfPlain {base other : BaseType} (h : base.Weaker other) :
      Weaker (optional base) (plain other)
  | optional {base other : BaseType} (h : base.Weaker other) :
      Weaker (optional base) (optional other)

/-- A weaker field has the same name and a weaker type. -/
structure Field.Weaker (field other : Field) : Prop where
  name_eq : field.name = other.name
  type : field.type.Weaker other.type

/-- A weaker schema has weaker fields one by one, under the same names in the same order. -/
def Schema.Weaker (schema other : Schema) : Prop :=
  List.Forall₂ Field.Weaker schema.fields other.fields

theorem BaseType.Weaker.accepts {base other : BaseType} (h : base.Weaker other) {value : Value}
    (hvalue : other.Accepts value) : base.Accepts value := by
  cases h with
  | refl => exact hvalue
  | enum hchoices =>
      cases hvalue with
      | choice hs => exact .choice (hchoices hs)
  | string choices =>
      cases hvalue with
      | choice hs => exact .text _

theorem FieldType.Weaker.base {type other : FieldType} (h : type.Weaker other) :
    type.base.Weaker other.base := by
  cases h with
  | plain h => exact h
  | optionalOfPlain h => exact h
  | optional h => exact h

namespace Field.Weaker

variable {field other : Field} {record : Record}

/-- A field that may be left out may be left out of a weaker schema. -/
theorem required_eq_false (h : field.Weaker other) (hother : other.required = false) :
    field.required = false := by
  obtain ⟨name, hne, type⟩ := field
  obtain ⟨name', hne', type'⟩ := other
  cases h.type with
  | plain => cases hother
  | optionalOfPlain => rfl
  | optional => rfl

theorem met (h : field.Weaker other) (hother : other.Met record) : field.Met record := by
  cases hother with
  | given hvalue haccepts => exact .given (h.name_eq ▸ hvalue) (h.type.base.accepts haccepts)
  | absent habsent hoptional => exact .absent (h.name_eq ▸ habsent) (h.required_eq_false hoptional)

theorem issue?_eq_none (h : field.Weaker other) (hother : other.issue? record = none) :
    field.issue? record = none := by
  rw [issue?_eq_none_iff_met] at hother ⊢
  exact h.met hother

/-- Weaker fields have issues in fewer places, in the same order. -/
theorem fields_filterMap_sublist {fields others : List Field}
    (h : List.Forall₂ Field.Weaker fields others) (record : Record) :
    ((fields.filterMap (Field.issue? record)).map Issue.field).Sublist
      ((others.filterMap (Field.issue? record)).map Issue.field) := by
  induction h with
  | nil => exact .slnil
  | @cons field other fields others hfield _ ih =>
      cases hother : other.issue? record with
      | none =>
          rw [List.filterMap_cons_none (hfield.issue?_eq_none hother),
            List.filterMap_cons_none hother]
          exact ih
      | some issue =>
          rw [List.filterMap_cons_some hother, List.map_cons, field_of_issue? hother,
            ← hfield.name_eq]
          cases hissue : field.issue? record with
          | none =>
              rw [List.filterMap_cons_none hissue]
              exact ih.cons _
          | some issue =>
              rw [List.filterMap_cons_some hissue, List.map_cons, field_of_issue? hissue]
              exact ih.cons_cons _

end Field.Weaker

namespace Schema

variable {schema : Schema} {mode : UnknownFields} {record : Record}

namespace Weaker

variable {weakened : Schema}

theorem names_eq (h : weakened.Weaker schema) : weakened.names = schema.names := by
  rw [names, names, ← List.forall₂_eq_eq_eq, List.forall₂_map_left_iff, List.forall₂_map_right_iff]
  exact h.imp fun _ _ hfield => hfield.name_eq

/-- The fields with an issue under a weaker schema are some of those with an issue. -/
theorem fields_issues_sublist (h : weakened.Weaker schema) (mode : UnknownFields)
    (record : Record) :
    ((weakened.issues mode record).map Issue.field).Sublist
      ((schema.issues mode record).map Issue.field) := by
  have hfields := Field.Weaker.fields_filterMap_sublist h record
  cases mode with
  | ignore => rwa [issues_ignore, issues_ignore]
  | reject =>
      have hundeclared : weakened.undeclared record = schema.undeclared record := by
        rw [undeclared, undeclared, h.names_eq]
      rw [issues_reject, issues_reject, issues_ignore, issues_ignore, hundeclared, List.map_append,
        List.map_append]
      exact hfields.append (List.Sublist.refl _)

theorem exists_accepted (h : weakened.Weaker schema) {valid : ValidRecord}
    (hvalid : schema.validate mode record = .accepted valid) :
    ∃ valid', weakened.validate mode record = .accepted valid' ∧ valid'.values = valid.values := by
  obtain ⟨hissues, rfl⟩ := validate_eq_accepted_iff.mp hvalid
  have hsublist := h.fields_issues_sublist mode record
  rw [hissues, List.map_nil, List.sublist_nil, List.map_eq_nil_iff] at hsublist
  refine ⟨_, validate_of_issues_eq_nil hsublist, ?_⟩
  simp only [project, h.names_eq]

end Weaker

section Extension

variable {extended : Schema} {added : List Field}

/-- A record without undeclared members has nothing under the name of a new field. -/
theorem lookup_added (hfields : extended.fields = schema.fields ++ added)
    (hdeclared : ∀ member ∈ record, member.1 ∈ schema.names) {field : Field}
    (hfield : field ∈ added) : record.lookup field.name = none := by
  rw [Entries.lookup_eq_none_iff_not_mem_names]
  intro hname
  obtain ⟨member, hmember, heq⟩ := List.mem_map.mp hname
  have hnodup := extended.nodup
  rw [hfields, List.map_append, List.nodup_append'] at hnodup
  exact hnodup.2.2 (heq ▸ hdeclared member hmember) (List.mem_map_of_mem hfield)

theorem project_extended (hfields : extended.fields = schema.fields ++ added)
    (hdeclared : ∀ member ∈ record, member.1 ∈ schema.names) :
    extended.project record = schema.project record := by
  have hadded : (added.map Field.name).filterMap
      (fun name => (record.lookup name).map (name, ·)) = [] := by
    rw [List.filterMap_eq_nil_iff, List.forall_mem_map]
    intro field hfield
    rw [lookup_added hfields hdeclared hfield]
    rfl
  rw [project, project, names, hfields, List.map_append, List.filterMap_append, hadded,
    List.append_nil]
  rfl

theorem exists_accepted_extended (hfields : extended.fields = schema.fields ++ added)
    (hadded : ∀ field ∈ added, field.required = false) (mode : UnknownFields) {valid : ValidRecord}
    (hvalid : schema.validate .reject record = .accepted valid) :
    ∃ valid', extended.validate mode record = .accepted valid' ∧ valid'.values = valid.values := by
  obtain ⟨hissues, rfl⟩ := validate_eq_accepted_iff.mp hvalid
  rw [issues_eq_nil_iff] at hissues
  obtain ⟨hold, hmode⟩ := hissues
  have hdeclared : ∀ member ∈ record, member.1 ∈ schema.names := by simpa using hmode
  have hissues : extended.issues mode record = [] := by
    rw [issues_eq_nil_iff, hfields]
    refine ⟨?_, .inr ?_⟩
    · intro field hfield
      rcases List.mem_append.mp hfield with hfield | hfield
      · exact hold field hfield
      · rw [Field.issue?_eq_none_iff_met]
        exact .absent (lookup_added hfields hdeclared hfield) (hadded field hfield)
    · intro member hmember
      rw [names, hfields, List.map_append]
      exact List.mem_append_left _ (hdeclared member hmember)
  exact ⟨_, validate_of_issues_eq_nil hissues, project_extended hfields hdeclared⟩

end Extension

/--
Weakening a schema never rejects more.  What a schema accepts, a weaker one accepts with the same
values, and the fields in which it finds an issue are some of those in which there was one, in the
same order.  New optional fields behind all others also keep every record that was accepted without
undeclared members, with the same values.
-/
theorem validate_weakened (schema : Schema) (record : Record) :
    (∀ weakened : Schema, weakened.Weaker schema → ∀ mode : UnknownFields,
      (∀ valid, schema.validate mode record = .accepted valid →
        ∃ valid', weakened.validate mode record = .accepted valid' ∧
          valid'.values = valid.values) ∧
      ((weakened.issues mode record).map Issue.field).Sublist
        ((schema.issues mode record).map Issue.field)) ∧
    ∀ (extended : Schema) (added : List Field), extended.fields = schema.fields ++ added →
      (∀ field ∈ added, field.required = false) →
      ∀ valid, schema.validate .reject record = .accepted valid → ∀ mode : UnknownFields,
        ∃ valid', extended.validate mode record = .accepted valid' ∧
          valid'.values = valid.values := by
  constructor
  · intro weakened h mode
    exact ⟨fun valid hvalid => h.exists_accepted hvalid, h.fields_issues_sublist mode record⟩
  · intro extended added hfields hadded valid hvalid mode
    exact exists_accepted_extended hfields hadded mode hvalid

end Schema

namespace WeakeningWitness

def schema : Schema where
  fields := [⟨"width", by decide, .plain (.primitive .number)⟩,
    ⟨"shade", by decide, .optional (.enum VerdictWitness.colours)⟩,
    ⟨"title", by decide, .plain (.primitive .string)⟩]
  nodup := by decide
  identity := .unknown
  description := none

/-- The width may be left out, the shade may be any text, and the title must be there as before. -/
def weakened : Schema where
  fields := [⟨"width", by decide, .optional (.primitive .number)⟩,
    ⟨"shade", by decide, .optional (.primitive .string)⟩,
    ⟨"title", by decide, .plain (.primitive .string)⟩]
  nodup := by decide
  identity := .unknown
  description := none

def note : Field := ⟨"note", by decide, .optional (.primitive .number)⟩

def extended : Schema where
  fields := schema.fields ++ [note]
  nodup := by decide
  identity := .unknown
  description := none

def record : Record := [("title", .string "x"), ("shade", .string "red"), ("width", .int 3)]

def values : Record := [("width", .int 3), ("shade", .string "red"), ("title", .string "x")]

theorem weaker_weakened : weakened.Weaker schema :=
  .cons ⟨rfl, .optionalOfPlain (.refl _)⟩
    (.cons ⟨rfl, .optional (.string _)⟩ (.cons ⟨rfl, .plain (.refl _)⟩ .nil))

/-- A record is accepted with its values by a weaker schema and by one with a further field. -/
theorem record_accepted :
    (weakened.Weaker schema ∧ extended.fields = schema.fields ++ [note] ∧
      (∀ field ∈ [note], field.required = false) ∧
      schema.validate .reject record = .accepted ⟨.unknown, values⟩) ∧
    (∃ valid, weakened.validate .reject record = .accepted valid ∧ valid.values = values) ∧
    ∃ valid, extended.validate .reject record = .accepted valid ∧ valid.values = values := by
  have hnote : ∀ field ∈ [note], field.required = false := by decide
  have hissues : schema.issues .reject record = [] := by
    rw [Schema.issues_eq_nil_iff]
    exact ⟨by decide, .inr (by decide)⟩
  have haccepted : schema.validate .reject record = .accepted ⟨.unknown, values⟩ :=
    Schema.validate_eq_accepted_iff.mpr ⟨hissues, rfl⟩
  obtain ⟨hweakened, hextended⟩ := schema.validate_weakened record
  exact ⟨⟨weaker_weakened, rfl, hnote, haccepted⟩,
    (hweakened weakened weaker_weakened .reject).1 _ haccepted,
    hextended extended [note] rfl hnote _ haccepted .reject⟩

end WeakeningWitness

end RecordRegistry
