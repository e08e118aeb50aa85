import RecordRegistry.Proofs.Accepted
import RecordRegistry.Proofs.Csv.Rows
import RecordRegistry.Proofs.Report.Partition

/-!
# Reports on texts

All values in comma-separated values are texts, and validation makes nothing else of them: a text is
no number, whatever it says. So a field for a number has an issue wherever there is a text for it,
and a schema that requires a number accepts no row of any table.
-/

namespace RecordRegistry

open Json (Value Record)

/-- Whether all values of a record are texts. -/
def Json.Record.IsTexts (record : Record) : Prop := ∀ member ∈ record, ∃ s, member.2 = .string s

theorem Rows.IsRow.isTexts {header cells : List Text} {row : Record}
    (h : IsRow header cells row) : Json.Record.IsTexts row := by
  intro member hmember
  obtain ⟨cell, hcell, -⟩ := (h.mem_iff member.1 member.2).mp hmember
  exact ⟨cell, hcell⟩

theorem Json.Record.IsTexts.exists_of_lookup {record : Record} (h : record.IsTexts)
    (hnames : record.names.Nodup) {name : Text} {value : Value}
    (hvalue : record.lookup name = some value) : ∃ s, value = .string s :=
  h _ ((Entries.lookup_eq_some_iff_mem hnames).mp hvalue)

/-- Where no field has two issues, one of them is all the issues of its field. -/
theorem Issue.filter_field_eq_singleton {issues : List Issue} (h : (issues.map field).Nodup)
    {issue : Issue} (hissue : issue ∈ issues) :
    issues.filter (·.field = issue.field) = [issue] := by
  induction issues with
  | nil => cases hissue
  | cons first rest ih =>
      rw [List.map_cons, List.nodup_cons] at h
      rcases List.mem_cons.mp hissue with rfl | hrest
      · have hnone : rest.filter (·.field = issue.field) = [] := by
          rw [List.filter_eq_nil_iff]
          intro other hother heq
          exact h.1 (of_decide_eq_true heq ▸ List.mem_map_of_mem hother)
        rw [List.filter_cons_of_pos (by simp), hnone]
      · have hne : first.field ≠ issue.field := by
          intro heq
          exact h.1 (heq ▸ List.mem_map_of_mem hrest)
        rw [List.filter_cons_of_neg (by simpa using hne)]
        exact ih h.2 hrest

/-- An issue of a text says that there was a text. -/
theorem BaseType.actual_of_issue?_string {base : BaseType} {name s : Text} {issue : Issue}
    (h : base.issue? name (.string s) = some issue) : issue.actual = some ("string" : Text) := by
  cases base with
  | primitive p =>
      rw [issue?, Option.ite_none_left_eq_some] at h
      cases h.2
      rfl
  | enum choices =>
      rw [issue?, Option.ite_none_left_eq_some] at h
      cases h.2
      rfl

namespace Schema

variable {schema : Schema} {mode : UnknownFields} {record : Record}

/-- The issues of a record of texts tell of no other type of value. -/
theorem actual_of_mem_issues (hrecord : Json.Record.IsTexts record) (hnames : record.names.Nodup)
    {issue : Issue} (hissue : issue ∈ schema.issues mode record) {type : Text}
    (htype : issue.actual = some type) : type = "string" := by
  rcases (schema.mem_issues_iff mode record issue).mp hissue with
    ⟨field, -, hsome⟩ | ⟨-, member, hmember, -, rfl⟩
  · cases hlookup : record.lookup field.name with
    | none =>
        rw [Field.issue?_of_lookup_eq_none hlookup, Option.ite_none_right_eq_some] at hsome
        cases hsome.2
        cases htype
    | some value =>
        obtain ⟨s, rfl⟩ := hrecord.exists_of_lookup hnames hlookup
        rw [Field.issue?_of_lookup_eq_some hlookup] at hsome
        rw [BaseType.actual_of_issue?_string hsome] at htype
        cases htype
        rfl
  · obtain ⟨s, hs⟩ := hrecord member hmember
    rw [hs] at htype
    cases htype
    rfl

/-- A record of texts does not meet a field that requires a number. -/
theorem issues_ne_nil_of_number (hrecord : Json.Record.IsTexts record)
    (hnames : record.names.Nodup) {field : Field} (hfield : field ∈ schema.fields)
    (hrequired : field.required = true) (hnumber : field.type.base = .primitive .number) :
    schema.issues mode record ≠ [] := by
  intro hissues
  rw [issues_eq_nil_iff] at hissues
  have hmet := (Field.issue?_eq_none_iff_met record field).mp (hissues.1 field hfield)
  cases hmet with
  | given hvalue haccepts =>
      obtain ⟨s, rfl⟩ := hrecord.exists_of_lookup hnames hvalue
      rw [hnumber] at haccepts
      cases haccepts
  | absent _ hoptional =>
      rw [hrequired] at hoptional
      cases hoptional

/-- The issue of a field is told in a report at the place of its row, as the only one of this
field. -/
theorem exists_rejection {rows : List Record} {index : Nat} (hrow : rows[index]? = some record)
    (hnames : record.names.Nodup) {field : Field} (hfield : field ∈ schema.fields) {issue : Issue}
    (hissue : field.issue? record = some issue) (mode : UnknownFields) :
    ∃ failure, ⟨index, failure⟩ ∈ (schema.report mode rows).rejected ∧
      failure.issuesFor field.name = [issue] := by
  have hmem : issue ∈ schema.issues mode record :=
    (schema.mem_issues_iff mode record issue).mpr (.inl ⟨field, hfield, hissue⟩)
  have htells := Report.tells_ofOutcomes schema.identity (rows.map (schema.validate mode))
  refine ⟨⟨schema.identity, schema.issues mode record⟩, ?_, ?_⟩
  · refine (htells.mem_rejected_iff index _).mpr ?_
    rw [List.getElem?_map, hrow]
    exact congrArg some (validate_of_issues_ne_nil (List.ne_nil_of_mem hmem))
  · rw [← Field.field_of_issue? hissue]
    exact Issue.filter_field_eq_singleton (schema.nodup_fields_issues mode hnames) hmem

section Row

variable {header cells : List Text} {rows : List Record} {index : Nat}

theorem exists_mismatch (hplace : rows[index]? = some record)
    (hrow : Rows.IsRow header cells record) {field : Field} (hfield : field ∈ schema.fields)
    (hnumber : field.type.base = .primitive .number) {cell : Text}
    (hcell : Csv.Holds header cells field.name cell) (mode : UnknownFields) :
    ∃ failure issue, ⟨index, failure⟩ ∈ (schema.report mode rows).rejected ∧
      failure.issuesFor field.name = [issue] ∧ issue.code = .typeMismatch ∧
      issue.actual = some ("string" : Text) := by
  have hissue : field.issue? record =
      some (.mismatch field.name (.primitive .number) (.string cell)) := by
    rw [Field.issue?_of_lookup_eq_some (hrow.lookup_of_holds hcell), hnumber]
    rfl
  obtain ⟨failure, hfailure, hissues⟩ :=
    exists_rejection hplace hrow.distinct hfield hissue mode
  exact ⟨failure, _, hfailure, hissues, rfl, rfl⟩

theorem exists_missing (hplace : rows[index]? = some record)
    (hrow : Rows.IsRow header cells record) {field : Field} (hfield : field ∈ schema.fields)
    (hrequired : field.required = true)
    (hcells : ∀ cell, ¬ Csv.Holds header cells field.name cell) (mode : UnknownFields) :
    ∃ failure issue, ⟨index, failure⟩ ∈ (schema.report mode rows).rejected ∧
      failure.issuesFor field.name = [issue] ∧ issue.code = .missingField := by
  have hissue : field.issue? record = some (.missing field.name field.type) := by
    rw [Field.issue?_of_lookup_eq_none (hrow.lookup_eq_none hcells), if_pos hrequired]
  obtain ⟨failure, hfailure, hissues⟩ :=
    exists_rejection hplace hrow.distinct hfield hissue mode
  exact ⟨failure, _, hfailure, hissues, rfl⟩

end Row

/--
Comma-separated values are not converted.  Whatever text is read, each of its records that is not
blank makes a row of the texts that it has under the names of the header.  So a report on the rows
tells of each row, and of each field for a number for which the row has a text, one issue, which
says that this is a string, and of each required field for which it has none, one issue, which says
that it is missing.  No issue tells of another type of value, and where a number is required no row
is accepted.
-/
theorem validateRows_ofCsv {text : List CodePoint} {rows : List Record}
    (h : Rows.ofCsv text = .ok rows) :
    ∃ records header body, Csv.records text = .ok records ∧ header = records.headD [] ∧
      body = records.tail.filter (· ≠ []) ∧ List.Forall₂ (Rows.IsRow header) body rows ∧
      ∀ (schema : Schema) (mode : UnknownFields), ∃ report,
        schema.validateRows mode.name (rows.map .object) = (report.logLines, .ok report) ∧
        (∀ index cells, body[index]? = some cells → ∀ field ∈ schema.fields,
          (field.type.base = .primitive .number →
            (∃ cell, Csv.Holds header cells field.name cell) →
            ∃ failure issue, ⟨index, failure⟩ ∈ report.rejected ∧
              failure.issuesFor field.name = [issue] ∧ issue.code = .typeMismatch ∧
              issue.actual = some ("string" : Text)) ∧
          (field.required = true → (∀ cell, ¬ Csv.Holds header cells field.name cell) →
            ∃ failure issue, ⟨index, failure⟩ ∈ report.rejected ∧
              failure.issuesFor field.name = [issue] ∧ issue.code = .missingField)) ∧
        (∀ rejection ∈ report.rejected, ∀ issue ∈ rejection.failure.issues, ∀ type,
          issue.actual = some type → type = "string") ∧
        ((∃ field ∈ schema.fields, field.required = true ∧
            field.type.base = .primitive .number) → report.accepted = []) := by
  obtain ⟨records, hrecords, hrows⟩ := Rows.forall₂_isRow_of_ofCsv h
  have hmem {row : Record} (hrow : row ∈ rows) :
      ∃ cells, Rows.IsRow (records.headD []) cells row := by
    obtain ⟨index, hindex, rfl⟩ := List.getElem_of_mem hrow
    exact ⟨_, hrows.get (hrows.length_eq ▸ hindex) hindex⟩
  refine ⟨records, _, _, hrecords, rfl, rfl, hrows, ?_⟩
  intro schema mode
  refine ⟨schema.report mode rows, schema.validateRows_records mode rows, ?_, ?_, ?_⟩
  · intro index cells hcells field hfield
    obtain ⟨hindex, rfl⟩ := List.getElem?_eq_some_iff.mp hcells
    have hplace := List.getElem?_eq_getElem (hrows.length_eq ▸ hindex)
    have hrow := hrows.get hindex (hrows.length_eq ▸ hindex)
    refine ⟨?_, ?_⟩
    · rintro hnumber ⟨cell, hcell⟩
      exact exists_mismatch hplace hrow hfield hnumber hcell mode
    · intro hrequired hnone
      exact exists_missing hplace hrow hfield hrequired hnone mode
  · intro rejection hrejection issue hissue type htype
    obtain ⟨row, hrow, hrejected⟩ := mem_rejected_report hrejection
    obtain ⟨cells, hcells⟩ := hmem hrow
    rw [(validate_eq_rejected_iff.mp hrejected).2] at hissue
    exact actual_of_mem_issues hcells.isTexts hcells.distinct hissue htype
  · rintro ⟨field, hfield, hrequired, hnumber⟩
    rw [List.eq_nil_iff_forall_not_mem]
    intro record hrecord
    obtain ⟨row, hrow, haccepted⟩ := mem_accepted_report hrecord
    obtain ⟨cells, hcells⟩ := hmem hrow
    exact issues_ne_nil_of_number hcells.isTexts hcells.distinct hfield hrequired hnumber
      (validate_eq_accepted_iff.mp haccepted).1

end Schema

namespace TextsWitness

open VerdictWitness (schema)

/-- The name of the first column comes again, one line is blank, the next one is short, and the last
one is long. -/
def text : List CodePoint := ("mass,label,mass\n1,x,\n\n2\n3,y,4,5" : Text).toList

def records : List (List Text) :=
  [["mass", "label", "mass"], ["1", "x", ""], [], ["2"], ["3", "y", "4", "5"]]

/-- An empty or missing cell of the last column leaves nothing of an earlier one. -/
def rows : List Record :=
  [[("label", .string "x")], [], [("mass", .string "4"), ("label", .string "y")]]

theorem holds_mass : Csv.Holds ["mass", "label", "mass"] ["3", "y", "4", "5"] "mass" "4" := by
  refine ⟨by decide, 2, ⟨rfl, ?_⟩, rfl⟩
  intro later hlater
  simp [Nat.succ_le_of_lt hlater]

theorem not_holds_label (cell : Text) :
    ¬ Csv.Holds ["mass", "label", "mass"] ["2"] "label" cell := by
  rintro ⟨-, column, ⟨hname, -⟩, hcell⟩
  obtain ⟨hcolumn, -⟩ := List.getElem?_eq_some_iff.mp hcell
  obtain rfl : column = 0 := Nat.lt_one_iff.mp hcolumn
  simp at hname

/-- No row is accepted. The second one lacks its label, and the last one has a text for a number. -/
theorem text_reported :
    Rows.ofCsv text = .ok rows ∧
    ∃ report, schema.validateRows UnknownFields.reject.name (rows.map .object) =
        (report.logLines, .ok report) ∧
      (∃ failure issue, ⟨1, failure⟩ ∈ report.rejected ∧ failure.issuesFor "label" = [issue] ∧
        issue.code = .missingField) ∧
      (∃ failure issue, ⟨2, failure⟩ ∈ report.rejected ∧ failure.issuesFor "mass" = [issue] ∧
        issue.code = .typeMismatch ∧ issue.actual = some ("string" : Text)) ∧
      report.accepted = [] := by
  have hrows : Rows.ofCsv text = .ok rows := by rfl
  have hrecords : Csv.records text = .ok records := by rfl
  obtain ⟨_, _, _, hread, rfl, rfl, -, h⟩ := Schema.validateRows_ofCsv hrows
  rw [hrecords] at hread
  cases hread
  obtain ⟨report, hreport, hissues, -, hnone⟩ := h schema .reject
  have hmass : schema.fields[0] ∈ schema.fields := List.getElem_mem _
  have hlabel : schema.fields[2] ∈ schema.fields := List.getElem_mem _
  refine ⟨hrows, report, hreport, ?_, ?_, hnone ⟨_, hmass, rfl, rfl⟩⟩
  · exact (hissues 1 ["2"] (by decide) _ hlabel).2 rfl not_holds_label
  · exact (hissues 2 ["3", "y", "4", "5"] (by decide) _ hmass).1 rfl ⟨"4", holds_mass⟩

end TextsWitness

end RecordRegistry
