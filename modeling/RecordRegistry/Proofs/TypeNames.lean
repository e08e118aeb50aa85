import RecordRegistry.Proofs.Verdict

/-!
# Types by name

The check of a value looks at the value itself, and issues tell its type by a name that is found
apart from the check. The two agree: a value passes exactly when it has the name of the type, and
is one of the choices where there are some. So no issue expects the very type that it tells of.
-/

namespace RecordRegistry

open Json (Value Record)

namespace BaseType

/-- The name that all values of a type have for theirs. -/
def valueType : BaseType → Text
  | primitive p => p.name
  | enum _ => "string"

/-- The values of a type are those of its name. -/
theorem fits_iff_schemaType (base : BaseType) (value : Value) :
    base.Fits value ↔ value.schemaType = base.valueType := by
  constructor
  · intro h
    cases h with
    | text s => rfl
    | int n => rfl
    | real hx => simp [Value.schemaType, valueType, Primitive.name, Double.isNaN_iff, hx]
    | choice choices s => rfl
  · intro h
    rcases base with (_ | _) | choices
    · cases value with
      | string s => exact .text s
      | real x =>
          rw [Value.schemaType] at h
          split at h <;> simp [valueType, Primitive.name] at h
      | _ => simp [Value.schemaType, valueType, Primitive.name] at h
    · cases value with
      | int n => exact .int n
      | real x =>
          refine .real fun hx => ?_
          simp [hx, Value.schemaType, Double.isNaN, valueType, Primitive.name] at h
      | _ => simp [Value.schemaType, valueType, Primitive.name] at h
    · cases value with
      | string s => exact .choice choices s
      | real x =>
          rw [Value.schemaType] at h
          split at h <;> simp [valueType] at h
      | _ => simp [Value.schemaType, valueType] at h

/-- The description of an enum is the name of no type. -/
theorem schemaType_ne_describe_enum (choices : Choices) (value : Value) :
    value.schemaType ≠ (enum choices).describe := by
  have hfirst : ∃ rest, (enum choices).describe.toList = .char 'e' :: rest := by
    simp [describe]
  obtain ⟨rest, hrest⟩ := hfirst
  intro h
  have hlist := congrArg Text.toList h
  rw [hrest] at hlist
  cases value with
  | real x =>
      rw [Value.schemaType] at hlist
      split at hlist <;> simp at hlist
  | _ => simp [Value.schemaType] at hlist

/-- The issue of a value is that of a wrong type, or that of a text that is no choice. -/
theorem issue?_cases {name : Text} {base : BaseType} {value : Value} {issue : Issue}
    (h : base.issue? name value = some issue) :
    ¬ base.Fits value ∧ issue = .mismatch name base value ∨
      ∃ choices s, base = .enum choices ∧ value = .string s ∧ s ∉ choices.values ∧
        issue = .notAChoice name choices s := by
  cases base with
  | primitive p =>
      simp only [issue?, Primitive.holds_iff_fits, Option.ite_none_left_eq_some,
        Option.some.injEq] at h
      exact .inl ⟨h.1, h.2.symm⟩
  | enum choices =>
      cases value with
      | string s =>
          simp only [issue?, Option.ite_none_left_eq_some, Option.some.injEq] at h
          exact .inr ⟨choices, s, rfl, rfl, h.1, h.2.symm⟩
      | _ =>
          refine .inl ⟨?_, (Option.some.inj h).symm⟩
          intro hfits
          cases hfits

/-- A value of another type than the declared one has another name than the declared type. -/
theorem schemaType_ne_describe {base : BaseType} {value : Value} (h : ¬ base.Fits value) :
    value.schemaType ≠ base.describe := by
  cases base with
  | primitive p => exact (fits_iff_schemaType _ value).not.mp h
  | enum choices => exact schemaType_ne_describe_enum choices value

/-- A value passes when it has the name of the type and, for an enum, is one of the choices. -/
theorem issue?_eq_none_iff_schemaType (name : Text) (base : BaseType) (value : Value) :
    base.issue? name value = none ↔ value.schemaType = base.valueType ∧
      ∀ choices, base = .enum choices → ∃ s ∈ choices.values, value = .string s := by
  rw [issue?_eq_none_iff, ← fits_iff_schemaType]
  refine and_congr_right fun hfits => ?_
  constructor
  · rintro h choices rfl
    cases hfits with
    | choice choices s => exact ⟨s, h choices s rfl rfl, rfl⟩
  · rintro h choices s hbase rfl
    obtain ⟨other, hother, heq⟩ := h choices hbase
    cases heq
    exact hother

end BaseType

namespace Schema

variable {schema : Schema} {mode : UnknownFields} {record : Record} {issue : Issue}

/-- Issues of values come from a declared field that has a value. -/
theorem exists_field_of_mem_issues (hissue : issue ∈ schema.issues mode record)
    (hmissing : issue.code ≠ .missingField) (hunknown : issue.code ≠ .unknownField) :
    ∃ field ∈ schema.fields, ∃ value, record.lookup field.name = some value ∧
      field.type.base.issue? field.name value = some issue := by
  rcases (schema.mem_issues_iff mode record issue).mp hissue with
    ⟨field, hfield, hsome⟩ | ⟨-, member, -, -, rfl⟩
  · refine ⟨field, hfield, ?_⟩
    cases hlookup : record.lookup field.name with
    | none =>
        rw [Field.issue?_of_lookup_eq_none hlookup, Option.ite_none_right_eq_some] at hsome
        cases hsome.2
        exact absurd rfl hmissing
    | some value =>
        rw [Field.issue?_of_lookup_eq_some hlookup] at hsome
        exact ⟨value, rfl, hsome⟩
  · exact absurd rfl hunknown

theorem actual_ne_expected (hissue : issue ∈ schema.issues mode record)
    (hcode : issue.code = .typeMismatch) :
    ∃ expected actual, issue.expected = some expected ∧ issue.actual = some actual ∧
      actual ≠ expected := by
  obtain ⟨field, -, value, -, hsome⟩ :=
    exists_field_of_mem_issues hissue (by simp [hcode]) (by simp [hcode])
  rcases BaseType.issue?_cases hsome with ⟨hfits, rfl⟩ | ⟨choices, s, -, -, -, rfl⟩
  · exact ⟨_, _, rfl, rfl, BaseType.schemaType_ne_describe hfits⟩
  · cases hcode

theorem exists_choices_of_mem_issues (hissue : issue ∈ schema.issues mode record)
    (hcode : issue.code = .invalidEnumValue) :
    issue.actual = some "string" ∧ ∃ field ∈ schema.fields, ∃ choices s,
      field.name = issue.field ∧ field.type.base = .enum choices ∧
      record.lookup field.name = some (.string s) ∧ issue.allowed = some choices.values ∧
      s ∉ choices.values := by
  obtain ⟨field, hfield, value, hvalue, hsome⟩ :=
    exists_field_of_mem_issues hissue (by simp [hcode]) (by simp [hcode])
  rcases BaseType.issue?_cases hsome with ⟨-, rfl⟩ | ⟨choices, s, htype, rfl, hs, rfl⟩
  · cases hcode
  · exact ⟨rfl, field, hfield, choices, s, rfl, htype, hvalue, rfl, hs⟩

/--
The check of a value agrees with the name of its type.  A value passes exactly when it has the name
of the type, without regard to whether the type is optional, and is a choice of the type if it is an
enum.  So an issue about a type never tells of the type that it expects, and an issue about a choice
tells of a text and lists the choices of its field, in their order and without this text.
-/
theorem issue_types_agree :
    (∀ (type : FieldType) (name : Text) (value : Value),
      type.base.issue? name value = none ↔ value.schemaType = type.base.valueType ∧
        ∀ choices, type.base = .enum choices → ∃ s ∈ choices.values, value = .string s) ∧
    ∀ (schema : Schema) (mode : UnknownFields) (record : Record),
      ∀ issue ∈ schema.issues mode record,
        (issue.code = .typeMismatch → ∃ expected actual, issue.expected = some expected ∧
          issue.actual = some actual ∧ actual ≠ expected) ∧
        (issue.code = .invalidEnumValue → issue.actual = some "string" ∧
          ∃ field ∈ schema.fields, ∃ choices s, field.name = issue.field ∧
            field.type.base = .enum choices ∧ record.lookup field.name = some (.string s) ∧
            issue.allowed = some choices.values ∧ s ∉ choices.values) :=
  ⟨fun type name value => type.base.issue?_eq_none_iff_schemaType name value,
    fun _ _ _ _ hissue => ⟨actual_ne_expected hissue, exists_choices_of_mem_issues hissue⟩⟩

end Schema

end RecordRegistry

namespace RecordRegistry.TypeNamesWitness

open Json (Record)

def tints : Choices := ⟨["amber", "violet"], by decide, by decide⟩

def schema : Schema where
  fields := [⟨"tint", by decide, .optional (.enum tints)⟩,
    ⟨"depth", by decide, .plain (.primitive .number)⟩]
  nodup := by decide
  identity := .unknown
  description := none

/-- A record with a text that is no choice, and with a double that is no number. -/
def record : Record := [("depth", .real .nan), ("tint", .string "grey")]

theorem types_told :
    (∃ issue ∈ schema.issues .reject record, issue.code = .typeMismatch ∧
      ∃ expected actual, issue.expected = some expected ∧ issue.actual = some actual ∧
        actual ≠ expected) ∧
    ∃ issue ∈ schema.issues .reject record, issue.code = .invalidEnumValue ∧
      issue.actual = some "string" := by
  obtain ⟨-, hissues⟩ := Schema.issue_types_agree
  have htint : .notAChoice "tint" tints "grey" ∈ schema.issues .reject record :=
    List.mem_cons_self
  have hdepth : .mismatch "depth" (.primitive .number) (.real .nan) ∈
      schema.issues .reject record := List.mem_cons_of_mem _ List.mem_cons_self
  exact ⟨⟨_, hdepth, rfl, (hissues schema .reject record _ hdepth).1 rfl⟩,
    ⟨_, htint, rfl, ((hissues schema .reject record _ htint).2 rfl).1⟩⟩

end RecordRegistry.TypeNamesWitness
