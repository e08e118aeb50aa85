import RecordRegistry.Proofs.Entries
import RecordRegistry.Validation

/-!
# The verdict on a record

`Field.Flagged` says what can be wrong with a field, in terms of the members of the record alone,
and `Schema.Verdict` puts the fields in their order and the undeclared names behind them. The
issues that validation finds are this verdict and no other, and the outcome follows from it.
-/

namespace RecordRegistry

open Json (Value Record)

/-- The values of a base type. An enum is a type of texts. -/
inductive BaseType.Fits : BaseType → Value → Prop
  | text (s : Text) : Fits (primitive .string) (.string s)
  | int (n : Int) : Fits (primitive .number) (.int n)
  | real {x : Double} (h : x ≠ .nan) : Fits (primitive .number) (.real x)
  | choice (choices : Choices) (s : Text) : Fits (enum choices) (.string s)

/-- What is wrong with a field of a record. -/
inductive Field.Flagged (record : Record) (field : Field) : IssueCode → Prop
  | missing {base : BaseType} (htype : field.type = .plain base)
      (habsent : ∀ value, (field.name, value) ∉ record) : Flagged record field .missingField
  | mismatch {value : Value} (hmem : (field.name, value) ∈ record)
      (hvalue : ¬ field.type.base.Fits value) : Flagged record field .typeMismatch
  | notAChoice {choices : Choices} {s : Text} (hmem : (field.name, .string s) ∈ record)
      (htype : field.type.base = .enum choices) (hchoice : s ∉ choices.values) :
      Flagged record field .invalidEnumValue

/-- The flagged ones among fields in their order, each with what is wrong with it. -/
inductive Flags (record : Record) : List Field → List (Text × IssueCode) → Prop
  | nil : Flags record [] []
  | flagged {field : Field} {fields : List Field} {code : IssueCode}
      {verdicts : List (Text × IssueCode)} (hfield : field.Flagged record code)
      (hfields : Flags record fields verdicts) :
      Flags record (field :: fields) ((field.name, code) :: verdicts)
  | clear {field : Field} {fields : List Field} {verdicts : List (Text × IssueCode)}
      (hfield : ∀ code, ¬ field.Flagged record code) (hfields : Flags record fields verdicts) :
      Flags record (field :: fields) verdicts

/-- The names in a record that are refused for not being declared, in strictly ascending order. -/
def Schema.Surplus (schema : Schema) (record : Record) : UnknownFields → List Text → Prop
  | .ignore, names => names = []
  | .reject, names => names.Pairwise (· < ·) ∧
      ∀ name, name ∈ names ↔ name ∈ record.names ∧ name ∉ schema.names

/-- The fields with an issue and the codes of their issues. -/
def Schema.Verdict (schema : Schema) (mode : UnknownFields) (record : Record)
    (verdicts : List (Text × IssueCode)) : Prop :=
  ∃ flags surplus, Flags record schema.fields flags ∧ schema.Surplus record mode surplus ∧
    verdicts = flags ++ surplus.map fun name => (name, .unknownField)

/-- The field and the code of an issue. -/
def Issue.verdict (issue : Issue) : Text × IssueCode := (issue.field, issue.code)

theorem Primitive.holds_iff_fits (p : Primitive) (value : Value) :
    p.holds value = true ↔ (BaseType.primitive p).Fits value := by
  constructor
  · intro h
    cases p with
    | string =>
        cases value with
        | string s => exact .text s
        | _ => simp [Primitive.holds] at h
    | number =>
        cases value with
        | int n => exact .int n
        | real x =>
            apply BaseType.Fits.real
            rw [← Double.isNaN_iff.ne]
            simpa [Primitive.holds] using h
        | _ => simp [Primitive.holds] at h
  · intro h
    cases h with
    | text s => rfl
    | int n => rfl
    | real hx => simpa [Primitive.holds, ← Double.isNaN_iff] using hx

/-- A value without an issue is of the type, and one of the choices of an enum. -/
theorem BaseType.issue?_eq_none_iff (name : Text) (base : BaseType) (value : Value) :
    base.issue? name value = none ↔ base.Fits value ∧
      ∀ choices s, base = .enum choices → value = .string s → s ∈ choices.values := by
  cases base with
  | primitive p => simp [BaseType.issue?, ← Primitive.holds_iff_fits]
  | enum choices =>
      cases value with
      | string s => simp [BaseType.issue?, BaseType.Fits.choice]
      | _ =>
          simp only [BaseType.issue?, reduceCtorEq, false_iff, not_and]
          intro h
          cases h

/-- An issue of a value names the field, and says which of the two conditions fails. -/
theorem BaseType.issue?_eq_some {name : Text} {base : BaseType} {value : Value} {issue : Issue}
    (h : base.issue? name value = some issue) :
    issue.field = name ∧
      (issue.code = .typeMismatch ∧ ¬ base.Fits value ∨
        issue.code = .invalidEnumValue ∧
          ∃ choices s, base = .enum choices ∧ value = .string s ∧ s ∉ choices.values) := by
  cases base with
  | primitive p =>
      simp only [BaseType.issue?, Primitive.holds_iff_fits, Option.ite_none_left_eq_some,
        Option.some.injEq] at h
      obtain ⟨hvalue, rfl⟩ := h
      exact ⟨rfl, .inl ⟨rfl, hvalue⟩⟩
  | enum choices =>
      cases value with
      | string s =>
          simp only [BaseType.issue?, Option.ite_none_left_eq_some, Option.some.injEq] at h
          obtain ⟨hs, rfl⟩ := h
          exact ⟨rfl, .inr ⟨rfl, choices, s, rfl, rfl, hs⟩⟩
      | _ =>
          cases h
          refine ⟨rfl, .inl ⟨rfl, ?_⟩⟩
          intro hvalue
          cases hvalue

namespace Field

theorem issue?_of_lookup_eq_none {record : Record} {field : Field}
    (h : record.lookup field.name = none) :
    field.issue? record =
      if field.required then some (.missing field.name field.type) else none := by
  rw [issue?, h]

theorem issue?_of_lookup_eq_some {record : Record} {field : Field} {value : Value}
    (h : record.lookup field.name = some value) :
    field.issue? record = field.type.base.issue? field.name value := by
  rw [issue?, h]

/-- A field sees nothing of a record but the value under its name. -/
theorem issue?_congr {a b : Record} {field : Field}
    (h : a.lookup field.name = b.lookup field.name) : field.issue? a = field.issue? b := by
  rw [issue?, issue?, h]

theorem required_iff (field : Field) : field.required = true ↔ ∃ base, field.type = .plain base := by
  rw [required]
  cases field.type <;> simp

/-- An issue of a field names the field. -/
theorem field_of_issue? {record : Record} {field : Field} {issue : Issue}
    (h : field.issue? record = some issue) : issue.field = field.name := by
  cases hlookup : record.lookup field.name with
  | none =>
      rw [issue?_of_lookup_eq_none hlookup, Option.ite_none_right_eq_some] at h
      obtain ⟨-, h⟩ := h
      cases h
      rfl
  | some value =>
      rw [issue?_of_lookup_eq_some hlookup] at h
      exact (BaseType.issue?_eq_some h).1

/-- No field is refused for not being declared. -/
theorem code_ne_of_issue? {record : Record} {field : Field} {issue : Issue}
    (h : field.issue? record = some issue) : issue.code ≠ .unknownField := by
  cases hlookup : record.lookup field.name with
  | none =>
      rw [issue?_of_lookup_eq_none hlookup, Option.ite_none_right_eq_some] at h
      obtain ⟨-, h⟩ := h
      cases h
      exact IssueCode.noConfusion
  | some value =>
      rw [issue?_of_lookup_eq_some hlookup] at h
      rcases (BaseType.issue?_eq_some h).2 with ⟨hcode, -⟩ | ⟨hcode, -⟩
      · simp [hcode]
      · simp [hcode]

/-- In a record with distinct names, what is flagged and what has an issue is the same. -/
theorem flagged_iff {record : Record} (hnames : record.names.Nodup) (field : Field)
    (code : IssueCode) :
    field.Flagged record code ↔ ∃ issue, field.issue? record = some issue ∧ issue.code = code := by
  constructor
  · intro h
    cases h with
    | missing htype habsent =>
        have hlookup : record.lookup field.name = none := by
          rw [Entries.lookup_eq_none_iff_not_mem_names]
          intro hmem
          obtain ⟨member, hmember, hname⟩ := List.mem_map.mp hmem
          exact habsent member.2 (hname ▸ hmember)
        have hrequired : field.required = true := field.required_iff.mpr ⟨_, htype⟩
        exact ⟨_, by rw [issue?_of_lookup_eq_none hlookup, if_pos hrequired], rfl⟩
    | mismatch hmem hvalue =>
        rw [← Entries.lookup_eq_some_iff_mem hnames] at hmem
        rw [issue?_of_lookup_eq_some hmem]
        cases hissue : field.type.base.issue? field.name ‹Value› with
        | none => exact absurd ((BaseType.issue?_eq_none_iff _ _ _).mp hissue).1 hvalue
        | some issue =>
            refine ⟨issue, rfl, ?_⟩
            rcases (BaseType.issue?_eq_some hissue).2 with ⟨hcode, -⟩ | ⟨-, choices, s, htype, rfl, -⟩
            · exact hcode
            · exact absurd (htype ▸ .choice choices s) hvalue
    | notAChoice hmem htype hchoice =>
        rw [← Entries.lookup_eq_some_iff_mem hnames] at hmem
        rw [issue?_of_lookup_eq_some hmem, htype]
        exact ⟨_, if_neg hchoice, rfl⟩
  · rintro ⟨issue, hissue, rfl⟩
    cases hlookup : record.lookup field.name with
    | none =>
        rw [issue?_of_lookup_eq_none hlookup, Option.ite_none_right_eq_some] at hissue
        obtain ⟨hrequired, hissue⟩ := hissue
        obtain ⟨base, htype⟩ := field.required_iff.mp hrequired
        cases hissue
        rw [Entries.lookup_eq_none_iff_not_mem_names] at hlookup
        exact .missing htype fun value hmem => hlookup (List.mem_map.mpr ⟨_, hmem, rfl⟩)
    | some value =>
        rw [issue?_of_lookup_eq_some hlookup] at hissue
        rw [Entries.lookup_eq_some_iff_mem hnames] at hlookup
        rcases (BaseType.issue?_eq_some hissue).2 with
          ⟨hcode, hvalue⟩ | ⟨hcode, choices, s, htype, rfl, hchoice⟩
        · exact hcode ▸ .mismatch hlookup hvalue
        · exact hcode ▸ .notAChoice hlookup htype hchoice

end Field

/-- The issues of fields are their flags and nothing else. -/
theorem flags_iff {record : Record} (hnames : record.names.Nodup) (fields : List Field)
    (verdicts : List (Text × IssueCode)) :
    Flags record fields verdicts ↔
      (fields.filterMap (Field.issue? record)).map Issue.verdict = verdicts := by
  induction fields generalizing verdicts with
  | nil =>
      constructor
      · intro h
        cases h
        rfl
      · rintro rfl
        exact .nil
  | cons field fields ih =>
      cases hissue : field.issue? record with
      | none =>
          have hclear : ∀ code, ¬ field.Flagged record code := by
            intro code hflagged
            obtain ⟨issue, hsome, -⟩ := (Field.flagged_iff hnames field code).mp hflagged
            rw [hissue] at hsome
            cases hsome
          rw [List.filterMap_cons_none hissue, ← ih]
          constructor
          · intro h
            cases h with
            | flagged hfield _ => exact absurd hfield (hclear _)
            | clear _ hfields => exact hfields
          · exact .clear hclear
      | some issue =>
          have hname := Field.field_of_issue? hissue
          have hflagged : field.Flagged record issue.code :=
            (Field.flagged_iff hnames field _).mpr ⟨issue, hissue, rfl⟩
          rw [List.filterMap_cons_some hissue, List.map_cons, Issue.verdict, hname]
          constructor
          · intro h
            cases h with
            | flagged hfield hfields =>
                obtain ⟨other, hother, rfl⟩ := (Field.flagged_iff hnames field _).mp hfield
                rw [hissue] at hother
                cases hother
                rw [(ih _).mp hfields]
            | clear hfield _ => exact absurd hflagged (hfield _)
          · rintro rfl
            exact .flagged hflagged ((ih _).mpr rfl)

namespace Schema

theorem issues_ignore (schema : Schema) (record : Record) :
    schema.issues .ignore record = schema.fields.filterMap (Field.issue? record) :=
  List.append_nil _

theorem issues_reject (schema : Schema) (record : Record) :
    schema.issues .reject record = schema.issues .ignore record ++
      (schema.undeclared record).map fun member => .undeclared member.1 member.2 := by
  rw [issues_ignore]
  rfl

theorem issues_ignore_congr {schema : Schema} {a b : Record}
    (h : ∀ field ∈ schema.fields, field.issue? a = field.issue? b) :
    schema.issues .ignore a = schema.issues .ignore b := by
  rw [issues_ignore, issues_ignore]
  exact List.filterMap_congr h

/-- Records in which every field finds the same, and which have the same issues of undeclared
members, have the same issues in either mode. -/
theorem issues_congr {schema : Schema} {a b : Record} (mode : UnknownFields)
    (hfields : ∀ field ∈ schema.fields, field.issue? a = field.issue? b)
    (hundeclared : ((schema.undeclared a).map fun member => Issue.undeclared member.1 member.2) =
      (schema.undeclared b).map fun member => Issue.undeclared member.1 member.2) :
    schema.issues mode a = schema.issues mode b := by
  have hignore := issues_ignore_congr hfields
  cases mode with
  | ignore => exact hignore
  | reject => rw [issues_reject, issues_reject, hignore, hundeclared]

theorem code_of_mem_map_undeclared {members : Record} {issue : Issue}
    (h : issue ∈ members.map fun member => .undeclared member.1 member.2) :
    issue.code = .unknownField := by
  obtain ⟨member, -, rfl⟩ := List.mem_map.mp h
  rfl

theorem mem_undeclared_iff (schema : Schema) (record : Record) (member : Text × Value) :
    member ∈ schema.undeclared record ↔ member ∈ record ∧ member.1 ∉ schema.names := by
  rw [undeclared, List.mem_mergeSort, List.mem_filter, decide_eq_true_eq]

/-- An issue is that of a field, or of an undeclared member that is refused. -/
theorem mem_issues_iff (schema : Schema) (mode : UnknownFields) (record : Record) (issue : Issue) :
    issue ∈ schema.issues mode record ↔
      (∃ field ∈ schema.fields, field.issue? record = some issue) ∨
      mode = .reject ∧ ∃ member ∈ record, member.1 ∉ schema.names ∧
        .undeclared member.1 member.2 = issue := by
  cases mode with
  | ignore => simp [issues_ignore]
  | reject => simp [issues_reject, issues_ignore, mem_undeclared_iff, and_assoc]

theorem mem_names_undeclared (schema : Schema) (record : Record) (name : Text) :
    name ∈ (schema.undeclared record).names ↔ name ∈ record.names ∧ name ∉ schema.names := by
  simp only [undeclared, Entries.names, List.mem_map, List.mem_mergeSort, List.mem_filter,
    decide_eq_true_eq]
  constructor
  · rintro ⟨member, ⟨hmem, hnot⟩, rfl⟩
    exact ⟨⟨member, hmem, rfl⟩, hnot⟩
  · rintro ⟨⟨member, hmem, rfl⟩, hnot⟩
    exact ⟨member, ⟨hmem, hnot⟩, rfl⟩

theorem pairwise_lt_names_undeclared (schema : Schema) {record : Record}
    (hnames : record.names.Nodup) : (schema.undeclared record).names.Pairwise (· < ·) :=
  Entries.pairwise_lt_names_mergeSort (hnames.sublist (List.filter_sublist.map _))

/-- The names of the undeclared members are the only surplus. -/
theorem surplus_reject_iff (schema : Schema) {record : Record} (hnames : record.names.Nodup)
    (surplus : List Text) :
    schema.Surplus record .reject surplus ↔ (schema.undeclared record).names = surplus := by
  have hsorted := schema.pairwise_lt_names_undeclared hnames
  have hmem := schema.mem_names_undeclared record
  constructor
  · rintro ⟨hpairwise, hsurplus⟩
    exact hsorted.eq_of_mem_iff hpairwise fun name => (hmem name).trans (hsurplus name).symm
  · rintro rfl
    exact ⟨hsorted, hmem⟩

/-- The issues of a record are its verdict and nothing else. -/
theorem verdict_iff (schema : Schema) (mode : UnknownFields) {record : Record}
    (hnames : record.names.Nodup) (verdicts : List (Text × IssueCode)) :
    schema.Verdict mode record verdicts ↔
      (schema.issues mode record).map Issue.verdict = verdicts := by
  cases mode with
  | ignore =>
      constructor
      · rintro ⟨flags, surplus, hflags, rfl, rfl⟩
        rw [← (flags_iff hnames _ _).mp hflags]
        simp [issues]
      · rintro rfl
        exact ⟨_, [], (flags_iff hnames _ _).mpr rfl, rfl, by simp [issues]⟩
  | reject =>
      have hissues : (schema.issues .reject record).map Issue.verdict =
          (schema.fields.filterMap (Field.issue? record)).map Issue.verdict ++
            (schema.undeclared record).names.map fun name => (name, .unknownField) := by
        simp [issues, Entries.names, Issue.verdict, Issue.undeclared, Function.comp_def]
      rw [hissues]
      constructor
      · rintro ⟨flags, surplus, hflags, hsurplus, rfl⟩
        rw [(flags_iff hnames _ _).mp hflags, (schema.surplus_reject_iff hnames _).mp hsurplus]
      · rintro rfl
        exact ⟨_, _, (flags_iff hnames _ _).mpr rfl, (schema.surplus_reject_iff hnames _).mpr rfl, rfl⟩

/-- The declared fields with an issue are some of the fields, in their order. -/
theorem fields_filterMap_sublist (fields : List Field) (record : Record) :
    ((fields.filterMap (Field.issue? record)).map Issue.field).Sublist (fields.map Field.name) := by
  induction fields with
  | nil => exact .slnil
  | cons field fields ih =>
      cases hissue : field.issue? record with
      | none =>
          rw [List.filterMap_cons_none hissue, List.map_cons]
          exact ih.cons _
      | some issue =>
          rw [List.filterMap_cons_some hissue, List.map_cons, List.map_cons,
            Field.field_of_issue? hissue]
          exact ih.cons_cons _

/-- No field has two issues. -/
theorem nodup_fields_issues (schema : Schema) (mode : UnknownFields) {record : Record}
    (hnames : record.names.Nodup) : ((schema.issues mode record).map Issue.field).Nodup := by
  have hsublist := fields_filterMap_sublist schema.fields record
  have hdeclared := schema.nodup.sublist hsublist
  cases mode with
  | ignore => simpa [issues] using hdeclared
  | reject =>
      have hsurplus : ((schema.undeclared record).map fun member =>
          Issue.undeclared member.1 member.2).map Issue.field = (schema.undeclared record).names := by
        simp [Entries.names, Issue.undeclared, Function.comp_def]
      rw [issues, List.map_append, hsurplus, List.nodup_append']
      refine ⟨hdeclared, (schema.pairwise_lt_names_undeclared hnames).nodup, ?_⟩
      intro name hname hundeclared
      exact ((schema.mem_names_undeclared record name).mp hundeclared).2 (hsublist.subset hname)

theorem names_project_sublist (schema : Schema) (record : Record) :
    (schema.project record).names.Sublist schema.names := by
  rw [project]
  induction schema.names with
  | nil => exact .slnil
  | cons name names ih =>
      cases hlookup : record.lookup name with
      | none =>
          rw [List.filterMap_cons_none (by rw [hlookup]; rfl)]
          exact ih.cons _
      | some value =>
          rw [List.filterMap_cons_some (by rw [hlookup]; rfl)]
          exact ih.cons_cons _

theorem nodup_names_project (schema : Schema) (record : Record) :
    (schema.project record).names.Nodup :=
  schema.nodup.sublist (schema.names_project_sublist record)

theorem mem_project_iff_lookup (schema : Schema) (record : Record) (name : Text) (value : Value) :
    (name, value) ∈ schema.project record ↔
      name ∈ schema.names ∧ record.lookup name = some value := by
  rw [project, List.mem_filterMap]
  constructor
  · rintro ⟨declared, hdeclared, hmember⟩
    obtain ⟨found, hlookup, heq⟩ := Option.map_eq_some_iff.mp hmember
    cases heq
    exact ⟨hdeclared, hlookup⟩
  · rintro ⟨hdeclared, hlookup⟩
    exact ⟨name, hdeclared, by rw [hlookup]; rfl⟩

/-- A projection holds the declared members of the record with the values they have there. -/
theorem mem_project_iff (schema : Schema) {record : Record} (hnames : record.names.Nodup)
    (name : Text) (value : Value) :
    (name, value) ∈ schema.project record ↔ name ∈ schema.names ∧ (name, value) ∈ record := by
  rw [mem_project_iff_lookup, Entries.lookup_eq_some_iff_mem hnames]

theorem lookup_project {schema : Schema} {name : Text} (hname : name ∈ schema.names)
    (record : Record) : (schema.project record).lookup name = record.lookup name := by
  apply Option.ext
  intro value
  rw [Entries.lookup_eq_some_iff_mem (schema.nodup_names_project record), mem_project_iff_lookup]
  exact and_iff_right hname

/-- A record has no issue when none of its fields has one and no undeclared member is refused. -/
theorem issues_eq_nil_iff (schema : Schema) (mode : UnknownFields) (record : Record) :
    schema.issues mode record = [] ↔
      (∀ field ∈ schema.fields, field.issue? record = none) ∧
      (mode = .ignore ∨ ∀ member ∈ record, member.1 ∈ schema.names) := by
  cases mode with
  | ignore => simp [issues]
  | reject =>
      have hundeclared : schema.undeclared record = [] ↔
          ∀ member ∈ record, member.1 ∈ schema.names := by
        simp [undeclared, List.eq_nil_iff_forall_not_mem]
      simp only [issues, List.append_eq_nil_iff, List.filterMap_eq_nil_iff, List.map_eq_nil_iff,
        hundeclared, reduceCtorEq, false_or]

theorem validate_of_issues_eq_nil {schema : Schema} {mode : UnknownFields} {record : Record}
    (h : schema.issues mode record = []) :
    schema.validate mode record = .accepted ⟨schema.identity, schema.project record⟩ := by
  rw [validate, h]

theorem validate_of_issues_ne_nil {schema : Schema} {mode : UnknownFields} {record : Record}
    (h : schema.issues mode record ≠ []) :
    schema.validate mode record = .rejected ⟨schema.identity, schema.issues mode record⟩ := by
  rw [validate]
  split
  · next hnil => exact absurd hnil h
  · rfl

theorem validate_eq_accepted_iff {schema : Schema} {mode : UnknownFields} {record : Record}
    {valid : ValidRecord} :
    schema.validate mode record = .accepted valid ↔
      schema.issues mode record = [] ∧ valid = ⟨schema.identity, schema.project record⟩ := by
  by_cases h : schema.issues mode record = []
  · simp [validate_of_issues_eq_nil h, h, eq_comm]
  · simp [validate_of_issues_ne_nil h, h]

theorem validate_eq_rejected_iff {schema : Schema} {mode : UnknownFields} {record : Record}
    {failure : Failure} :
    schema.validate mode record = .rejected failure ↔
      schema.issues mode record ≠ [] ∧ failure = ⟨schema.identity, schema.issues mode record⟩ := by
  by_cases h : schema.issues mode record = []
  · simp [validate_of_issues_eq_nil h, h]
  · simp [validate_of_issues_ne_nil h, h, eq_comm]

/-- The issues and the projection of a record are all that its outcome depends on. -/
theorem validate_congr {schema : Schema} {mode mode' : UnknownFields} {a b : Record}
    (hissues : schema.issues mode a = schema.issues mode' b)
    (hproject : schema.project a = schema.project b) :
    schema.validate mode a = schema.validate mode' b := by
  rw [validate, validate, hissues, hproject]

/-- A record is accepted exactly when it has no issue. -/
theorem ok_validate_iff (schema : Schema) (mode : UnknownFields) (record : Record) :
    (schema.validate mode record).ok = true ↔ schema.issues mode record = [] := by
  by_cases h : schema.issues mode record = []
  · simp [validate_of_issues_eq_nil h, h, Outcome.ok]
  · simp [validate_of_issues_ne_nil h, h, Outcome.ok]

/--
The verdict on a record is the sequence of fields and codes of its issues.  An empty verdict gives
a record of the declared members in the order of the schema, and any other a failure with all the
issues, in which no field comes twice.
-/
theorem validate_verdict (schema : Schema) (mode : UnknownFields) (record : Record)
    (hnames : record.names.Nodup) :
    (∀ verdicts, (schema.issues mode record).map Issue.verdict = verdicts ↔
      schema.Verdict mode record verdicts) ∧
    match schema.validate mode record with
    | .accepted valid =>
        schema.Verdict mode record [] ∧ valid.identity = schema.identity ∧
          valid.values.names.Sublist schema.names ∧
          ∀ name value, (name, value) ∈ valid.values ↔
            name ∈ schema.names ∧ (name, value) ∈ record
    | .rejected failure =>
        ¬ schema.Verdict mode record [] ∧ failure.identity = schema.identity ∧
          failure.issues = schema.issues mode record ∧ failure.fields.Nodup := by
  refine ⟨fun verdicts => (schema.verdict_iff mode hnames verdicts).symm, ?_⟩
  have hverdict := schema.verdict_iff mode hnames []
  rw [List.map_eq_nil_iff] at hverdict
  by_cases h : schema.issues mode record = []
  · rw [validate_of_issues_eq_nil h]
    exact ⟨hverdict.mpr h, rfl, schema.names_project_sublist record, schema.mem_project_iff hnames⟩
  · rw [validate_of_issues_ne_nil h]
    exact ⟨mt hverdict.mp h, rfl, rfl, schema.nodup_fields_issues mode hnames⟩

end Schema

namespace VerdictWitness

def colours : Choices := ⟨["red", "blue"], by decide, by decide⟩

def schema : Schema where
  fields := [⟨"mass", by decide, .plain (.primitive .number)⟩,
    ⟨"colour", by decide, .optional (.enum colours)⟩,
    ⟨"label", by decide, .plain (.primitive .string)⟩]
  nodup := by decide
  identity := .unknown
  description := none

def record : Record :=
  [("weight", .null), ("colour", .string "green"), ("mass", .bool true), ("age", .int 3)]

theorem undeclared_record :
    schema.undeclared record = ([("age", .int 3), ("weight", .null)] : Record) := by
  simp [Schema.undeclared, schema, record, Schema.names, List.mergeSort]

/-- Every kind of issue at once: a truth value is no number, and an optional field is checked. -/
theorem verdict_record : record.names.Nodup ∧
    schema.Verdict .reject record [("mass", .typeMismatch), ("colour", .invalidEnumValue),
      ("label", .missingField), ("age", .unknownField), ("weight", .unknownField)] := by
  have hnames : record.names.Nodup := by decide
  refine ⟨hnames, ((schema.validate_verdict .reject record hnames).1 _).mp ?_⟩
  rw [Schema.issues, undeclared_record]
  rfl

end VerdictWitness

end RecordRegistry
