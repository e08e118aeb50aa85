import RecordRegistry.Proofs.Declaration.Reading
import RecordRegistry.Proofs.Declaration.Refusal

/-!
# Well-formed declarations

What a declaration looks like is described member by member, without a word on how it is read. The
values of this form are the declarations of schemas, up to the order of members and missing texts,
and so they are what the reader accepts. Of all other values it tells at least one problem.
-/

namespace RecordRegistry

open Json (Value Record)

namespace Declaration

/-- The form of a primitive type or of an enum. -/
inductive BaseForm : Value → Prop
  | primitive {members : Record} {name : Text}
      (hmembers : members.Perm [("kind", .string "primitive"), ("primitive", .string name)])
      (hname : name = "string" ∨ name = "number") : BaseForm (.object members)
  | enum {members : Record} {texts : List Text}
      (hmembers : members.Perm [("kind", .string "enum"), ("allowed", Value.ofTexts texts)])
      (hne : texts ≠ []) (hnodup : texts.Nodup) : BaseForm (.object members)

/-- The form of a type. An optional type wraps one that is not optional. -/
inductive TypeForm : Value → Prop
  | plain {value : Value} (hvalue : BaseForm value) : TypeForm value
  | optional {members : Record} {inner : Value}
      (hmembers : members.Perm [("kind", .string "optional"), ("inner", inner)])
      (hinner : BaseForm inner) : TypeForm (.object members)

/-- The form of a field of a given name. -/
inductive FieldForm : Value → Text → Prop
  | intro {members : Record} {name : Text} {type : Value}
      (hmembers : members.Perm [("name", .string name), ("type", type)]) (hname : name ≠ "")
      (htype : TypeForm type) : FieldForm (.object members) name

/-- The form of a text or null. -/
def TextForm (value : Value) : Prop := value = .null ∨ ∃ s, value = .string s

/-- The form of a schema. -/
inductive SchemaForm : Value → Prop
  | intro {members : Record} {fields : List Value} {names : List Text}
      (hmembers : ∀ name ∈ members.names, name ∈ ("field_specs" : Text) :: optionalNames)
      (hfields : (("field_specs" : Text), Value.array fields) ∈ members)
      (hforms : List.Forall₂ FieldForm fields names) (hnodup : names.Nodup)
      (htexts : ∀ member ∈ members, member.1 ∈ optionalNames → TextForm member.2) :
      SchemaForm (.object members)

theorem baseForm_iff {value : Value} :
    BaseForm value ↔ ∃ base : BaseType, value.Same base.toValue := by
  constructor
  · intro h
    cases h with
    | primitive hmembers hname =>
        rcases hname with rfl | rfl
        · exact ⟨.primitive .string, Value.same_pair_iff.mpr ⟨_, _, rfl, hmembers, .string _⟩⟩
        · exact ⟨.primitive .number, Value.same_pair_iff.mpr ⟨_, _, rfl, hmembers, .string _⟩⟩
    | @enum _ texts hmembers hne hnodup =>
        exact ⟨.enum ⟨texts, hne, hnodup⟩,
          Value.same_pair_iff.mpr ⟨_, _, rfl, hmembers, Value.Same.refl _⟩⟩
  · rintro ⟨base, hsame⟩
    cases base with
    | primitive p =>
        obtain ⟨members, w, rfl, hmembers, hw⟩ := Value.same_pair_iff.mp hsame
        obtain rfl := Value.same_string_iff.mp hw
        apply BaseForm.primitive hmembers
        cases p <;> simp [Primitive.name]
    | enum c =>
        obtain ⟨members, w, rfl, hmembers, hw⟩ := Value.same_pair_iff.mp hsame
        obtain rfl := Value.same_ofTexts_iff.mp hw
        exact .enum hmembers c.values_ne_nil c.nodup

theorem typeForm_iff {value : Value} :
    TypeForm value ↔ ∃ type : FieldType, value.Same type.toValue := by
  constructor
  · intro h
    cases h with
    | plain hvalue =>
        obtain ⟨base, hsame⟩ := baseForm_iff.mp hvalue
        exact ⟨.plain base, hsame⟩
    | optional hmembers hinner =>
        obtain ⟨base, hsame⟩ := baseForm_iff.mp hinner
        exact ⟨.optional base, Value.same_pair_iff.mpr ⟨_, _, rfl, hmembers, hsame⟩⟩
  · rintro ⟨type, hsame⟩
    cases type with
    | plain base => exact .plain (baseForm_iff.mpr ⟨base, hsame⟩)
    | optional base =>
        obtain ⟨members, w, rfl, hmembers, hw⟩ := Value.same_pair_iff.mp hsame
        exact .optional hmembers (baseForm_iff.mpr ⟨base, hw⟩)

theorem fieldForm_iff {value : Value} {name : Text} :
    FieldForm value name ↔ ∃ field : Field, value.Same field.toValue ∧ field.name = name := by
  constructor
  · rintro ⟨hmembers, hname, htype⟩
    obtain ⟨type, hsame⟩ := typeForm_iff.mp htype
    exact ⟨⟨name, hname, type⟩, Value.same_pair_iff.mpr ⟨_, _, rfl, hmembers, hsame⟩, rfl⟩
  · rintro ⟨field, hsame, rfl⟩
    obtain ⟨members, w, rfl, hmembers, hw⟩ := Value.same_pair_iff.mp hsame
    exact .intro hmembers field.name_ne_empty (typeForm_iff.mpr ⟨field.type, hw⟩)

/-- Values have the form of fields when they are the declarations of some. -/
theorem forall₂_fieldForm_iff {values : List Value} {names : List Text} :
    List.Forall₂ FieldForm values names ↔ ∃ fields : List Field,
      List.Forall₂ Value.Same values (fields.map Field.toValue) ∧
        fields.map Field.name = names := by
  simp only [List.forall₂_map_right_iff]
  induction values generalizing names with
  | nil => simp [eq_comm]
  | cons value values ih =>
      constructor
      · intro h
        obtain ⟨name, names, hvalue, hvalues, rfl⟩ := List.forall₂_cons_left_iff.mp h
        obtain ⟨field, hsame, rfl⟩ := fieldForm_iff.mp hvalue
        obtain ⟨fields, hfields, rfl⟩ := ih.mp hvalues
        exact ⟨field :: fields, .cons hsame hfields, rfl⟩
      · rintro ⟨fields, hfields, rfl⟩
        obtain ⟨field, fields, hsame, hrest, rfl⟩ := List.forall₂_cons_left_iff.mp hfields
        exact .cons (fieldForm_iff.mpr ⟨field, hsame, rfl⟩) (ih.mpr ⟨fields, hrest, rfl⟩)

theorem textForm_iff {value : Value} : TextForm value ↔ ∃ s?, value = Value.ofText? s? := by
  constructor
  · rintro (rfl | ⟨s, rfl⟩)
    · exact ⟨none, rfl⟩
    · exact ⟨some s, rfl⟩
  · rintro ⟨_ | s, rfl⟩
    · exact .inl rfl
    · exact .inr ⟨s, rfl⟩

/-- Members of some names are texts or null when null may stand for those that are missing. -/
theorem forall_textForm_iff {members : Record} (hnames : members.names.Nodup)
    {names : List Text} :
    (∀ member ∈ members, member.1 ∈ names → TextForm member.2) ↔
      ∀ name ∈ names, ∃ s?, (members.lookup name).getD .null = Value.ofText? s? := by
  constructor
  · intro h name hname
    rw [← textForm_iff]
    cases hvalue : members.lookup name with
    | none => exact .inl rfl
    | some value => exact h (name, value) ((Entries.lookup_eq_some_iff_mem hnames).mp hvalue) hname
  · intro h member hmember hname
    have hvalue := (Entries.lookup_eq_some_iff_mem hnames).mpr hmember
    have htext := h member.1 hname
    rw [hvalue] at htext
    exact textForm_iff.mpr htext

/-- The reader of schemas accepts the values of their form. -/
theorem exists_schema_eq_ok_iff {value : Value} (h : value.Distinct) :
    (∃ found, schema value = .ok found) ↔ SchemaForm value := by
  constructor
  · rintro ⟨found, hfound⟩
    obtain ⟨members, rfl⟩ := schema_eq_ok hfound
    have hnames := (Value.distinct_object_iff.mp h).1
    obtain ⟨⟨value, hvalue, hsame⟩, hregistry, hversion, hdescription, hmembers⟩ :=
      (schema_object_eq_ok_iff h).mp hfound
    obtain ⟨values, rfl, hvalues⟩ := Value.same_array_iff.mp hsame
    apply SchemaForm.intro hmembers
    · exact (Entries.lookup_eq_some_iff_mem hnames).mp hvalue
    · exact forall₂_fieldForm_iff.mpr ⟨found.fields, hvalues, rfl⟩
    · exact found.nodup
    · rw [forall_textForm_iff hnames]
      simp only [optionalNames, List.forall_mem_cons]
      exact ⟨⟨_, hregistry⟩, ⟨_, hversion⟩, ⟨_, hdescription⟩, by simp⟩
  · rintro @⟨members, values, names, hmembers, hvalues, hforms, hnodup, htexts⟩
    have hnames := (Value.distinct_object_iff.mp h).1
    obtain ⟨fields, hsame, rfl⟩ := forall₂_fieldForm_iff.mp hforms
    rw [forall_textForm_iff hnames] at htexts
    obtain ⟨registry, hregistry⟩ := htexts "registry_name" (by decide)
    obtain ⟨version, hversion⟩ := htexts "version_key" (by decide)
    obtain ⟨description, hdescription⟩ := htexts "description" (by decide)
    refine ⟨⟨fields, hnodup, ⟨registry, version⟩, description⟩, ?_⟩
    rw [schema_object_eq_ok_iff h]
    exact ⟨⟨.array values, (Entries.lookup_eq_some_iff_mem hnames).mpr hvalues, .array hsame⟩,
      hregistry, hversion, hdescription, hmembers⟩

end Declaration

namespace Schema

open Declaration (SchemaForm)

/--
The values that declare a schema are those of the form that is described above.  Every other value
is refused as a schema, with at least one problem.
-/
theorem ofValue_verdict {value : Value} (h : value.Distinct) :
    ((∃ schema, ofValue value = .ok schema) ↔ SchemaForm value) ∧
      (¬ SchemaForm value → ∃ refusal, ofValue value = .error refusal ∧
        refusal.model = "RecordSpec" ∧ refusal.problems ≠ []) := by
  have haccepted : (∃ schema, ofValue value = .ok schema) ↔ SchemaForm value := by
    simp only [ofValue_eq_ok_iff]
    exact Declaration.exists_schema_eq_ok_iff h
  refine ⟨haccepted, fun hform => ?_⟩
  cases hschema : Declaration.schema value with
  | ok schema => exact absurd (haccepted.mp ⟨schema, ofValue_eq_ok_iff.mpr hschema⟩) hform
  | error problems =>
      have hproblems := Declaration.grounded_schema value
      rw [hschema] at hproblems
      refine ⟨⟨"RecordSpec", problems⟩, by rw [ofValue, hschema]; rfl, rfl, ?_⟩
      rintro rfl
      exact hproblems rfl

end Schema

namespace WellFormedWitness

open Declaration (TypeForm FieldForm SchemaForm)

def number : Value := .object [("kind", .string "primitive"), ("primitive", .string "number")]

def optional (inner : Value) : Value :=
  .object [("inner", inner), ("kind", .string "optional")]

/-- A schema of one field, with a description that is null. -/
def scored (type : Value) : Value :=
  .object [("description", .null),
    ("field_specs", .array [.object [("type", type), ("name", .string "score")]])]

theorem distinct_scored {type : Value} (h : type.Distinct) : (scored type).Distinct := by
  simp [scored, Value.distinct_object_iff, Value.distinct_array_iff, Entries.names, h,
    Value.Distinct.string, Value.Distinct.null]

theorem distinct_optional {inner : Value} (h : inner.Distinct) : (optional inner).Distinct := by
  simp [optional, Value.distinct_object_iff, Entries.names, h, Value.Distinct.string]

theorem distinct_number : number.Distinct := by
  simp [number, Value.distinct_object_iff, Entries.names, Value.Distinct.string]

theorem schemaForm_scored : SchemaForm (scored (optional number)) := by
  have htype : TypeForm (optional number) :=
    .optional (List.Perm.swap _ _ _) (.primitive (List.Perm.refl _) (.inr rfl))
  have hfield : FieldForm (.object [("type", optional number), ("name", .string "score")])
      "score" :=
    .intro (List.Perm.swap _ _ _) (by decide) htype
  apply SchemaForm.intro _ (by simp) (.cons hfield .nil) (List.nodup_singleton _)
  · simp [Declaration.optionalNames, Declaration.TextForm]
  · simp [Declaration.optionalNames, Entries.names]

/-- An optional type is accepted, and one that wraps another is not. -/
theorem scored_verdict :
    ((scored (optional number)).Distinct ∧ SchemaForm (scored (optional number)) ∧
      ∃ schema, Schema.ofValue (scored (optional number)) = .ok schema) ∧
    ((scored (optional (optional number))).Distinct ∧
      ¬ SchemaForm (scored (optional (optional number))) ∧
      ∃ refusal, Schema.ofValue (scored (optional (optional number))) = .error refusal ∧
        refusal.model = "RecordSpec" ∧ refusal.problems ≠ []) := by
  have hdistinct := distinct_scored (distinct_optional distinct_number)
  have hnested := distinct_scored (distinct_optional (distinct_optional distinct_number))
  have hform : ¬ SchemaForm (scored (optional (optional number))) := by
    intro hform
    obtain ⟨schema, hschema⟩ := (Schema.ofValue_verdict hnested).1.mpr hform
    cases hschema
  exact ⟨⟨hdistinct, schemaForm_scored,
      (Schema.ofValue_verdict hdistinct).1.mpr schemaForm_scored⟩,
    hnested, hform, (Schema.ofValue_verdict hnested).2 hform⟩

end WellFormedWitness

end RecordRegistry
