import RecordRegistry.Proofs.Verdict

/-!
# Validation and the order of things

The order of the members of a record has no say in its outcome. The order of the fields of a schema
has none in whether a record is accepted: it is the order in which values and issues of fields are
told, and issues of undeclared members stay as they are.
-/

namespace RecordRegistry

open Json (Value Record)

namespace Schema

section Members

variable {a b : Record}

/-- Undeclared members are put in the order of their names, whatever their order was. -/
theorem undeclared_of_perm (schema : Schema) (hnames : a.names.Nodup) (h : a.Perm b) :
    schema.undeclared a = schema.undeclared b := by
  have hundeclared : (Entries.names (a.filter (·.1 ∉ schema.names))).Nodup :=
    hnames.sublist (List.filter_sublist.map _)
  exact (Entries.mergeSort_eq_mergeSort_iff hundeclared).mpr (h.filter _)

theorem issues_of_perm (schema : Schema) (mode : UnknownFields) (hnames : a.names.Nodup)
    (h : a.Perm b) : schema.issues mode a = schema.issues mode b := by
  apply issues_congr mode
  · intro field _
    exact Field.issue?_congr (Entries.lookup_of_perm hnames h field.name)
  · rw [schema.undeclared_of_perm hnames h]

theorem project_of_perm (schema : Schema) (hnames : a.names.Nodup) (h : a.Perm b) :
    schema.project a = schema.project b := by
  apply List.filterMap_congr
  intro name _
  rw [Entries.lookup_of_perm hnames h]

/-- The order of members has no say in the outcome. -/
theorem validate_of_perm (schema : Schema) (mode : UnknownFields) (hnames : a.names.Nodup)
    (h : a.Perm b) : schema.validate mode a = schema.validate mode b :=
  validate_congr (schema.issues_of_perm mode hnames h) (schema.project_of_perm hnames h)

end Members

section Fields

variable {a b : Schema}

theorem undeclared_of_perm_fields (h : a.fields.Perm b.fields) (record : Record) :
    a.undeclared record = b.undeclared record := by
  have hmem (name : Text) : name ∈ a.names ↔ name ∈ b.names := (h.map Field.name).mem_iff
  simp only [undeclared, hmem]

theorem project_perm (h : a.fields.Perm b.fields) (record : Record) :
    (a.project record).Perm (b.project record) :=
  (h.map Field.name).filterMap _

/-- Whatever follows the issues of fields is the same for both schemas. -/
theorem exists_issues_eq_append (h : a.fields.Perm b.fields) (mode : UnknownFields)
    (record : Record) :
    ∃ unknown, a.issues mode record = a.issues .ignore record ++ unknown ∧
      b.issues mode record = b.issues .ignore record ++ unknown ∧
      ∀ issue ∈ unknown, issue.code = .unknownField := by
  cases mode with
  | ignore => exact ⟨[], by simp, by simp, by simp⟩
  | reject =>
      refine ⟨_, a.issues_reject record, ?_, fun _ => code_of_mem_map_undeclared⟩
      rw [undeclared_of_perm_fields h, issues_reject]

theorem issues_ignore_perm (h : a.fields.Perm b.fields) (record : Record) :
    (a.issues .ignore record).Perm (b.issues .ignore record) := by
  rw [issues_ignore, issues_ignore]
  exact h.filterMap _

theorem issues_perm (h : a.fields.Perm b.fields) (mode : UnknownFields) (record : Record) :
    (a.issues mode record).Perm (b.issues mode record) := by
  obtain ⟨unknown, ha, hb, -⟩ := exists_issues_eq_append h mode record
  rw [ha, hb]
  exact (issues_ignore_perm h record).append_right unknown

theorem ok_validate_of_perm_fields (h : a.fields.Perm b.fields) (mode : UnknownFields)
    (record : Record) : (a.validate mode record).ok = (b.validate mode record).ok := by
  have hlength := (issues_perm h mode record).length_eq
  rw [Bool.eq_iff_iff, ok_validate_iff, ok_validate_iff, ← List.length_eq_zero_iff,
    ← List.length_eq_zero_iff, hlength]

end Fields

/--
What order has to do with validation.  A record with its members in another order has the same
outcome.  A schema with its fields in another order accepts the same records, with the same values
in the order of its own fields.  It finds the same issues of fields, also in the order of its own
fields, and behind them the issues of undeclared members stay the same.
-/
theorem validate_reordered (schema : Schema) (mode : UnknownFields) (record : Record)
    (hnames : record.names.Nodup) :
    (∀ other : Record, other.Perm record →
      schema.validate mode other = schema.validate mode record) ∧
    ∀ reordered : Schema, reordered.fields.Perm schema.fields →
      (reordered.validate mode record).ok = (schema.validate mode record).ok ∧
      (∀ valid valid', schema.validate mode record = .accepted valid →
        reordered.validate mode record = .accepted valid' →
          valid'.values.Perm valid.values ∧ valid'.values.names.Sublist reordered.names) ∧
      ∃ declared declared' unknown,
        schema.issues mode record = declared ++ unknown ∧
        reordered.issues mode record = declared' ++ unknown ∧
        declared'.Perm declared ∧ (declared'.map Issue.field).Sublist reordered.names ∧
        (∀ issue ∈ declared, issue.code ≠ .unknownField) ∧
        ∀ issue ∈ unknown, issue.code = .unknownField := by
  refine ⟨fun other h => (schema.validate_of_perm mode hnames h.symm).symm, ?_⟩
  intro reordered h
  refine ⟨ok_validate_of_perm_fields h mode record, ?_, ?_⟩
  · intro valid valid' hvalid hvalid'
    obtain ⟨-, rfl⟩ := validate_eq_accepted_iff.mp hvalid
    obtain ⟨-, rfl⟩ := validate_eq_accepted_iff.mp hvalid'
    exact ⟨project_perm h record, reordered.names_project_sublist record⟩
  · obtain ⟨unknown, hreordered, hschema, hunknown⟩ := exists_issues_eq_append h mode record
    refine ⟨_, _, unknown, hschema, hreordered, issues_ignore_perm h record, ?_, ?_, hunknown⟩
    · rw [issues_ignore]
      exact fields_filterMap_sublist reordered.fields record
    · intro issue hissue
      rw [issues_ignore] at hissue
      obtain ⟨field, -, hfield⟩ := List.mem_filterMap.mp hissue
      exact Field.code_ne_of_issue? hfield

end Schema

namespace OrderWitness

open VerdictWitness (schema record)

/-- The fields in the opposite order. -/
def reordered : Schema where
  fields := schema.fields.reverse
  nodup := by decide
  identity := .unknown
  description := none

/-- The opposite order of the fields is that of their issues, and of no others. -/
theorem issues_reordered :
    (record.names.Nodup ∧ record.reverse.Perm record ∧ reordered.fields.Perm schema.fields) ∧
      schema.validate .reject record.reverse = schema.validate .reject record ∧
      (reordered.validate .reject record).ok = (schema.validate .reject record).ok ∧
      ∃ declared declared' unknown,
        schema.issues .reject record = declared ++ unknown ∧
        reordered.issues .reject record = declared' ++ unknown ∧
        declared'.Perm declared ∧
        (declared'.map Issue.field).Sublist ["label", "colour", "mass"] ∧
        (∀ issue ∈ declared, issue.code ≠ .unknownField) ∧
        ∀ issue ∈ unknown, issue.code = .unknownField := by
  have hnames : record.names.Nodup := by decide
  have hrecord : record.reverse.Perm record := record.reverse_perm
  have hfields : reordered.fields.Perm schema.fields := schema.fields.reverse_perm
  have h := Schema.validate_reordered schema .reject record hnames
  obtain ⟨hok, -, hissues⟩ := h.2 reordered hfields
  exact ⟨⟨hnames, hrecord, hfields⟩, h.1 _ hrecord, hok, hissues⟩

end OrderWitness

end RecordRegistry
