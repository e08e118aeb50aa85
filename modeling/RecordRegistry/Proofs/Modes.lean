import RecordRegistry.Proofs.Verdict

/-!
# The two modes of validation

Members that a schema does not declare are ignored or refused. Ignoring them is the same as leaving
them out of the record, and refusing them adds one issue for each of their names behind all other
issues. Whatever is accepted when they are refused is therefore accepted with the same values when
they are ignored, and the other way round it depends on their absence alone.
-/

namespace RecordRegistry

open Json (Value Record)

namespace Schema

/-- The members of a record that a schema declares, in the order of the record. -/
def declared (schema : Schema) (record : Record) : Record :=
  record.filter (·.1 ∈ schema.names)

theorem lookup_declared {schema : Schema} {name : Text} (h : name ∈ schema.names)
    (record : Record) : (schema.declared record).lookup name = record.lookup name :=
  Entries.lookup_filter (· ∈ schema.names) (decide_eq_true h) record

theorem undeclared_declared (schema : Schema) (record : Record) :
    schema.undeclared (schema.declared record) = [] := by
  have hfilter : (schema.declared record).filter (·.1 ∉ schema.names) = [] := by
    rw [List.filter_eq_nil_iff]
    intro member hmember
    simpa using (List.mem_filter.mp hmember).2
  rw [undeclared, hfilter, List.mergeSort_nil]

/-- Without undeclared members there is nothing to refuse. -/
theorem issues_declared (schema : Schema) (record : Record) :
    schema.issues .reject (schema.declared record) = schema.issues .ignore record := by
  rw [issues_reject, undeclared_declared, List.map_nil, List.append_nil]
  apply issues_ignore_congr
  intro field hfield
  exact Field.issue?_congr (lookup_declared (List.mem_map_of_mem hfield) record)

theorem project_declared (schema : Schema) (record : Record) :
    schema.project (schema.declared record) = schema.project record := by
  apply List.filterMap_congr
  intro name hname
  rw [lookup_declared hname]

theorem names_undeclared_perm (schema : Schema) (record : Record) :
    (schema.undeclared record).names.Perm (record.names.filter (· ∉ schema.names)) := by
  rw [Entries.names, Entries.names, List.filter_map]
  exact (List.mergeSort_perm _ _).map _

/--
The modes of validation in terms of each other.  The outcome for a record whose undeclared members
are ignored is that for its declared members alone.  When undeclared members are refused, there is
one more issue for each of their names, behind the issues that there are anyway.  So a record is
accepted with some values when they are refused exactly when it is accepted with these values when
they are ignored, and has none.
-/
theorem validate_modes (schema : Schema) (record : Record) :
    schema.validate .ignore record = schema.validate .reject (schema.declared record) ∧
    (∃ surplus, schema.issues .reject record = schema.issues .ignore record ++ surplus ∧
      (∀ issue ∈ surplus, issue.code = .unknownField) ∧
      (surplus.map Issue.field).Perm (record.names.filter (· ∉ schema.names))) ∧
    ∀ valid, schema.validate .reject record = .accepted valid ↔
      schema.validate .ignore record = .accepted valid ∧
        ∀ name ∈ record.names, name ∈ schema.names := by
  refine ⟨?_, ⟨_, schema.issues_reject record, fun _ => code_of_mem_map_undeclared, ?_⟩, ?_⟩
  · exact validate_congr (schema.issues_declared record).symm (schema.project_declared record).symm
  · have hfields : ((schema.undeclared record).map fun member =>
        Issue.undeclared member.1 member.2).map Issue.field = (schema.undeclared record).names := by
      rw [List.map_map]
      rfl
    rw [hfields]
    exact schema.names_undeclared_perm record
  · intro valid
    have hdeclared : (∀ member ∈ record, member.1 ∈ schema.names) ↔
        ∀ name ∈ record.names, name ∈ schema.names := List.forall_mem_map.symm
    rw [validate_eq_accepted_iff, validate_eq_accepted_iff, issues_eq_nil_iff, issues_eq_nil_iff,
      hdeclared]
    simp only [reduceCtorEq, false_or, true_or, and_true]
    exact and_right_comm

end Schema

end RecordRegistry
