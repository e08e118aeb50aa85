import RecordRegistry.Proofs.Report.Partition
import RecordRegistry.Proofs.Verdict

/-!
# Accepted records are accepted again

The values of an accepted record are a record in which every field finds what it found before, and
which has no undeclared members. So they are accepted in either mode, as they are, and a report on
the accepted records of a report has nothing to reject.
-/

namespace RecordRegistry

open Json (Value Record)

namespace Schema

variable {schema : Schema} {mode : UnknownFields} {record : Record}

/-- The declared values of a record have the issues of its fields and no others. -/
theorem issues_project (schema : Schema) (again : UnknownFields) (record : Record) :
    schema.issues again (schema.project record) = schema.issues .ignore record := by
  have hundeclared : schema.undeclared (schema.project record) = [] := by
    rw [List.eq_nil_iff_forall_not_mem]
    intro member hmember
    obtain ⟨hproject, hname⟩ := (schema.mem_undeclared_iff _ member).mp hmember
    exact hname ((schema.mem_project_iff_lookup record _ _).mp hproject).1
  have hignore : schema.issues .ignore (schema.project record) = schema.issues .ignore record := by
    apply issues_ignore_congr
    intro field hfield
    exact Field.issue?_congr (lookup_project (List.mem_map_of_mem hfield) record)
  cases again with
  | ignore => exact hignore
  | reject => rw [issues_reject, hundeclared, List.map_nil, List.append_nil, hignore]

theorem project_project (schema : Schema) (record : Record) :
    schema.project (schema.project record) = schema.project record := by
  apply List.filterMap_congr
  intro name hname
  rw [lookup_project hname]

/-- The values of an accepted record are accepted as they are. -/
theorem validate_values {valid : ValidRecord} (h : schema.validate mode record = .accepted valid)
    (again : UnknownFields) : schema.validate again valid.values = .accepted valid := by
  obtain ⟨hissues, rfl⟩ := validate_eq_accepted_iff.mp h
  rw [issues_eq_nil_iff] at hissues
  have hignore : schema.issues .ignore record = [] :=
    (schema.issues_eq_nil_iff .ignore record).mpr ⟨hissues.1, .inl rfl⟩
  rw [validate_eq_accepted_iff, issues_project, project_project]
  exact ⟨hignore, rfl⟩

/-- A record that is accepted when undeclared members are refused keeps all its members. -/
theorem values_perm_of_reject {valid : ValidRecord} (hnames : record.names.Nodup)
    (h : schema.validate .reject record = .accepted valid) : valid.values.Perm record := by
  obtain ⟨hissues, rfl⟩ := validate_eq_accepted_iff.mp h
  rw [issues_eq_nil_iff] at hissues
  have hdeclared : ∀ member ∈ record, member.1 ∈ schema.names := by simpa using hissues.2
  rw [List.perm_ext_iff_of_nodup (.of_map _ (schema.nodup_names_project record)) (.of_map _ hnames)]
  rintro ⟨name, value⟩
  rw [schema.mem_project_iff hnames]
  exact and_iff_right_of_imp (hdeclared (name, value))

end Schema

/-- A report on nothing but accepted records. -/
theorem Report.ofOutcomes_accepted (identity : Identity) (records : List ValidRecord) :
    ofOutcomes identity (records.map .accepted) = ⟨identity, records.length, records, []⟩ := by
  have hrejected : rejections 0 (records.map .accepted) = [] := by
    rw [rejections_eq_nil_iff, List.forall_mem_map]
    exact fun _ _ => rfl
  simp [ofOutcomes, hrejected, List.filterMap_map]

namespace Schema

/-- The report on the records of a report rejects none of them. -/
theorem report_values (schema : Schema) (mode again : UnknownFields) (rows : List Record) :
    schema.report again ((schema.report mode rows).accepted.map ValidRecord.values) =
      ⟨schema.identity, (schema.report mode rows).accepted.length,
        (schema.report mode rows).accepted, []⟩ := by
  have houtcomes : ((schema.report mode rows).accepted.map ValidRecord.values).map
      (schema.validate again) = (schema.report mode rows).accepted.map .accepted := by
    rw [List.map_map]
    apply List.map_congr_left
    intro record hrecord
    obtain ⟨row, -, hvalid⟩ := mem_accepted_report hrecord
    exact validate_values hvalid again
  rw [report, houtcomes, Report.ofOutcomes_accepted]

/--
Validation changes nothing about accepted records.  Validated once more, in either mode, the values
of the accepted records of a report are all accepted, without a line in the log, and give the same
records in the same order.  Where undeclared members are refused, every accepted record has exactly
the members of its row.
-/
theorem validateRows_values (schema : Schema) (mode again : UnknownFields) (rows : List Record) :
    ∃ report, (schema.validateRows mode.name (rows.map .object)).2 = .ok report ∧
      (∃ second, schema.validateRows again.name
          (report.accepted.map fun record => .object record.values) = ([], .ok second) ∧
        second.ok = true ∧ second.identity = report.identity ∧
        second.total = report.accepted.length ∧ second.accepted = report.accepted) ∧
      (mode = .reject → (∀ row ∈ rows, row.names.Nodup) →
        List.Forall₂ (fun index record => ∃ row, rows[index]? = some row ∧ record.values.Perm row)
          ((List.range report.total).filter (· ∉ report.rejected.map Rejection.index))
          report.accepted) := by
  refine ⟨schema.report mode rows, by rw [validateRows_records], ?_, ?_⟩
  · have hrecords := schema.validateRows_records again
      ((schema.report mode rows).accepted.map ValidRecord.values)
    rw [List.map_map, report_values] at hrecords
    exact ⟨_, hrecords, rfl, rfl, rfl, rfl⟩
  · rintro rfl hnames
    have htells := Report.tells_ofOutcomes schema.identity (rows.map (schema.validate .reject))
    refine htells.accepted.imp ?_
    intro index record hrecord
    rw [List.getElem?_map, Option.map_eq_some_iff] at hrecord
    obtain ⟨row, hrow, hvalid⟩ := hrecord
    exact ⟨row, hrow, values_perm_of_reject (hnames row (List.mem_of_getElem? hrow)) hvalid⟩

end Schema

namespace RevalidationWitness

open VerdictWitness (schema)

/-- A row that is rejected, and one that is accepted with its members in another order. -/
def rows : List Record :=
  [VerdictWitness.record, [("label", .string "x"), ("colour", .string "red"), ("mass", .int 3)]]

theorem rows_validated_again :
    (∀ row ∈ rows, row.names.Nodup) ∧
    ∃ report, (schema.validateRows UnknownFields.reject.name (rows.map .object)).2 = .ok report ∧
      (∃ second, schema.validateRows UnknownFields.ignore.name
          (report.accepted.map fun record => .object record.values) = ([], .ok second) ∧
        second.accepted = report.accepted) ∧
      List.Forall₂ (fun index record => ∃ row, rows[index]? = some row ∧ record.values.Perm row)
        ((List.range report.total).filter (· ∉ report.rejected.map Rejection.index))
        report.accepted := by
  have hnames : ∀ row ∈ rows, row.names.Nodup := by decide
  obtain ⟨report, hreport, ⟨second, hsecond, -, -, -, haccepted⟩, hmembers⟩ :=
    schema.validateRows_values .reject .ignore rows
  exact ⟨hnames, report, hreport, ⟨second, hsecond, haccepted⟩, hmembers rfl hnames⟩

end RevalidationWitness

end RecordRegistry
