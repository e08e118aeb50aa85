import RecordRegistry.Proofs.Declaration.Reading
import RecordRegistry.Proofs.Json.Document
import RecordRegistry.Proofs.Json.ReadBack

/-!
# Declarations and schemas correspond

A schema is read back from the text of its declaration. A value that declares a schema is that of
the schema, up to the order of members and the texts that it leaves out.
-/

namespace RecordRegistry

open Json (Value Record)

theorem BaseType.legible_toValue (base : BaseType) : base.toValue.Legible := by
  cases base with
  | primitive p => exact Value.legible_pair (by decide) (.string _) (.string _)
  | enum c => exact Value.legible_pair (by decide) (.string _) (Value.legible_ofTexts _)

theorem FieldType.legible_toValue (type : FieldType) : type.toValue.Legible := by
  cases type with
  | plain base => exact base.legible_toValue
  | optional base => exact Value.legible_pair (by decide) (.string _) base.legible_toValue

theorem Field.legible_toValue (field : Field) : field.toValue.Legible :=
  Value.legible_pair (by decide) (.string _) field.type.legible_toValue

theorem Schema.legible_toValue (schema : Schema) : schema.toValue.Legible := by
  have hfields : schema.fieldsValue.Legible := by
    apply Value.Legible.array
    intro item hitem
    obtain ⟨field, -, rfl⟩ := List.mem_map.mp hitem
    exact field.legible_toValue
  apply Value.Legible.object
  · simp [Entries.names]
  · simp [hfields, Value.legible_ofText?]

namespace Declaration

variable {members : Record}

/-- The members that a declaration of a schema leaves out. -/
def missingNames (members : Record) : List Text := optionalNames.filter (· ∉ members.names)

/-- The members of a declaration, and null for each of those that it leaves out. -/
def completed (members : Record) : Record :=
  members ++ (missingNames members).map fun name => (name, .null)

theorem mem_missingNames_iff {name : Text} :
    name ∈ missingNames members ↔ name ∈ optionalNames ∧ name ∉ members.names := by
  rw [missingNames, List.mem_filter, decide_eq_true_eq]

theorem mem_completed_iff {name : Text} {value : Value} :
    (name, value) ∈ completed members ↔
      (name, value) ∈ members ∨ name ∈ missingNames members ∧ value = .null := by
  simp only [completed, List.mem_append, List.mem_map, Prod.mk.injEq]
  apply or_congr_right
  constructor
  · rintro ⟨_, hname, rfl, rfl⟩
    exact ⟨hname, rfl⟩
  · rintro ⟨hname, rfl⟩
    exact ⟨name, hname, rfl, rfl⟩

theorem names_completed : (completed members).names = members.names ++ missingNames members := by
  simp [completed, Entries.names, Function.comp_def]

theorem nodup_names_completed (hnames : members.names.Nodup) : (completed members).names.Nodup := by
  rw [names_completed]
  apply hnames.append
  · have hoptional : optionalNames.Nodup := by decide
    exact hoptional.filter _
  · intro name hname hmissing
    exact (mem_missingNames_iff.mp hmissing).2 hname

/-- A declaration that leaves nothing out is complete. -/
theorem completed_of_subset (h : ∀ name ∈ optionalNames, name ∈ members.names) :
    completed members = members := by
  have hmissing : missingNames members = [] := by
    rw [List.eq_nil_iff_forall_not_mem]
    intro name hname
    obtain ⟨hoptional, hnot⟩ := mem_missingNames_iff.mp hname
    exact hnot (h name hoptional)
  rw [completed, hmissing, List.map_nil, List.append_nil]

/-- Under an optional name stands what the declaration has there, or else null. -/
theorem exists_mem_completed_iff (hnames : members.names.Nodup) {name : Text}
    (hname : name ∈ optionalNames) {p : Value → Prop} :
    (∃ value, (name, value) ∈ completed members ∧ p value) ↔
      p ((members.lookup name).getD .null) := by
  simp only [mem_completed_iff, mem_missingNames_iff]
  cases hvalue : members.lookup name with
  | none =>
      rw [Entries.lookup_eq_none_iff_not_mem_names] at hvalue
      have hnot : ∀ value, (name, value) ∉ members :=
        fun value hmem => hvalue (List.mem_map_of_mem hmem)
      simp [hnot, hname, hvalue]
  | some value =>
      have hmem := (Entries.lookup_eq_some_iff_mem hnames).mp hvalue
      have hin : name ∈ members.names := List.mem_map_of_mem hmem
      simp [← Entries.lookup_eq_some_iff_mem hnames, hvalue, hin]

/-- Under any other name stands what the declaration has there. -/
theorem exists_mem_completed_iff_of_not_mem (hnames : members.names.Nodup) {name : Text}
    (hname : name ∉ optionalNames) {p : Value → Prop} :
    (∃ value, (name, value) ∈ completed members ∧ p value) ↔
      ∃ value, members.lookup name = some value ∧ p value := by
  simp only [mem_completed_iff, mem_missingNames_iff, hname, false_and, or_false,
    Entries.lookup_eq_some_iff_mem hnames]

/-- A schema is read from the objects that are its declaration once they are completed. -/
theorem schema_object_eq_ok_iff_same (h : (Value.object members).Distinct) {found : Schema} :
    schema (.object members) = .ok found ↔
      Value.Same (.object (completed members)) found.toValue := by
  have hnames := (Value.distinct_object_iff.mp h).1
  have hall : (∀ name ∈ members.names, name ∈ ("field_specs" : Text) :: optionalNames) ↔
      ∀ name ∈ (completed members).names, name ∈ ("field_specs" : Text) :: optionalNames := by
    have hmissing : ∀ name ∈ missingNames members, name ∈ ("field_specs" : Text) :: optionalNames :=
      fun name hname => List.mem_cons_of_mem _ (mem_missingNames_iff.mp hname).1
    simp only [names_completed, List.mem_append, or_imp, forall_and, and_iff_left hmissing]
  rw [schema_object_eq_ok_iff h, hall, Schema.toValue,
    Value.same_object_iff (nodup_names_completed hnames) (by simp [Entries.names])]
  simp only [List.forall_mem_cons, Value.same_ofText?_iff,
    exists_mem_completed_iff_of_not_mem hnames
      (show ("field_specs" : Text) ∉ optionalNames by decide),
    exists_mem_completed_iff hnames (show ("registry_name" : Text) ∈ optionalNames by decide),
    exists_mem_completed_iff hnames (show ("version_key" : Text) ∈ optionalNames by decide),
    exists_mem_completed_iff hnames (show ("description" : Text) ∈ optionalNames by decide)]
  constructor
  · rintro ⟨hfields, hregistry, hversion, hdescription, hothers⟩
    exact ⟨hothers, hfields, hregistry, hversion, hdescription, by simp⟩
  · rintro ⟨hothers, hfields, hregistry, hversion, hdescription, -⟩
    exact ⟨hfields, hregistry, hversion, hdescription, hothers⟩

/-- A schema is read from its own declaration, whatever the order of the members. -/
theorem schema_of_same {value : Value} (h : value.Distinct) {found : Schema}
    (hsame : value.Same found.toValue) : schema value = .ok found := by
  cases value with
  | object members =>
      -- a declaration that a schema writes has all the optional members
      have hcomplete : completed members = members := by
        apply completed_of_subset
        intro name hname
        rw [hsame.perm_names.mem_iff]
        exact List.mem_cons_of_mem _ hname
      rw [schema_object_eq_ok_iff_same h, hcomplete]
      exact hsame
  | _ => cases hsame

end Declaration

namespace Schema

open Declaration (completed)

/--
Schemas and their declarations correspond.  Every schema is read back from the text of its
declaration. A value that declares a schema is an object, and once null stands for the texts that it
leaves out, it is the declaration of that schema up to the order of members.
-/
theorem declaration_round_trip :
    (∀ schema : Schema, ∃ value, Json.read schema.toValue.canonical.toList = .ok value ∧
      ofValue value = .ok schema) ∧
    ∀ (value : Value) (schema : Schema), value.Distinct → ofValue value = .ok schema →
      ∃ members, value = .object members ∧
        Value.Same (.object (completed members)) schema.toValue := by
  constructor
  · intro schema
    have hread := Json.read_canonical schema.legible_toValue
    refine ⟨schema.toValue.sorted, hread, ?_⟩
    rw [ofValue_eq_ok_iff]
    exact Declaration.schema_of_same (Json.distinct_of_read hread) (Value.same_sorted _)
  · intro value schema hdistinct hvalue
    rw [ofValue_eq_ok_iff] at hvalue
    obtain ⟨members, rfl⟩ := Declaration.schema_eq_ok hvalue
    exact ⟨members, rfl, (Declaration.schema_object_eq_ok_iff_same hdistinct).mp hvalue⟩

end Schema

namespace DeclarationWitness

/-- The members stand in another order, and two texts are left out. -/
def score : Value :=
  .object [
    ("type", .object [
      ("inner", .object [("primitive", .string "number"), ("kind", .string "primitive")]),
      ("kind", .string "optional")]),
    ("name", .string "score")]

def members : Record := [("description", .string "points"), ("field_specs", .array [score])]

def schema : Schema :=
  ⟨[⟨"score", by decide, .optional (.primitive .number)⟩], by decide, Identity.unknown,
    some "points"⟩

theorem distinct_members : (Value.object members).Distinct := by
  simp [members, score, Value.distinct_object_iff, Value.distinct_array_iff, Entries.names,
    Value.Distinct.string]

theorem schema_reordered :
    (Value.object members).Distinct ∧ Schema.ofValue (.object members) = .ok schema ∧
      ∃ others, Value.object members = .object others ∧
        Value.Same (.object (Declaration.completed others)) schema.toValue := by
  have hvalue : Schema.ofValue (.object members) = .ok schema := by rfl
  exact ⟨distinct_members, hvalue,
    Schema.declaration_round_trip.2 (.object members) schema distinct_members hvalue⟩

end DeclarationWitness

end RecordRegistry
