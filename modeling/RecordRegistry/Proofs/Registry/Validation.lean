import RecordRegistry.Proofs.Registry.Views
import RecordRegistry.Proofs.Report.Partition
import RecordRegistry.Proofs.Verdict

/-!
# Validation by a registry

A version of a registry says about records what its schema says, under the names of the version
instead of the identity of the schema. Once the schema has been entered, no later call changes this;
as long as it has not been, the version is unknown. A schema is entered by the first call that
offers one, and for this the call need not succeed.
-/

namespace RecordRegistry

open Json (Value Record)

namespace Outcome

/-- The identity of the record or of the failure. -/
def identity : Outcome → Identity
  | accepted record => record.identity
  | rejected failure => failure.identity

/-- An outcome under another identity. -/
def relabelled (identity : Identity) : Outcome → Outcome
  | accepted record => accepted { record with identity := identity }
  | rejected failure => rejected { failure with identity := identity }

@[simp] theorem identity_relabelled (identity : Identity) (outcome : Outcome) :
    (outcome.relabelled identity).identity = identity := by
  cases outcome <;> rfl

end Outcome

theorem Schema.validate_identified (schema : Schema) (name version : Text) (mode : UnknownFields)
    (record : Record) :
    (schema.identified name version).validate mode record =
      (schema.validate mode record).relabelled (Identity.of name version) := by
  have hissues : (schema.identified name version).issues mode record = schema.issues mode record :=
    rfl
  by_cases hnil : schema.issues mode record = []
  · rw [validate_of_issues_eq_nil hnil, validate_of_issues_eq_nil (hissues.trans hnil)]
    rfl
  · rw [validate_of_issues_ne_nil hnil, validate_of_issues_ne_nil (hissues ▸ hnil)]
    rfl

/-- The errors that say that a version of a registry is unknown, or the registry itself. -/
inductive RegistryError.IsUnknown (name version : Text) : RegistryError → Prop
  | version (known : List Text) : IsUnknown name version (.unknownVersion name version known)
  | registry (known : List Text) :
      IsUnknown name version (.unknownRegistry name (some version) known)

namespace Registry

variable {registry : Registry} {name version : Text}

theorem exists_lookup_eq_error (h : registry.contains name version = false) :
    ∃ error, error.IsUnknown name version ∧ registry.lookup name version = .error error := by
  cases hlookup : registry.lookup name version with
  | ok schema =>
      rw [contains_eq_isSome, lookup_eq_ok_iff.mp hlookup] at h
      cases h
  | error error =>
      refine ⟨error, ?_, rfl⟩
      rcases lookup_eq_error_iff.mp hlookup with ⟨-, rfl⟩ | ⟨-, -, rfl⟩
      · exact .registry _
      · exact .version _

section Found

variable {schema : Schema}

theorem validate_of_find? (h : registry.find? name version = some (schema.identified name version))
    (mode : UnknownFields) (record : Record) :
    registry.validate name version mode.name (.object record) =
      .ok ((schema.validate mode record).relabelled (Identity.of name version)) := by
  rw [validate, lookup_eq_ok_iff.mpr h, ← Schema.validate_identified]
  simp only [Schema.validateValue_object, Except.mapError]

theorem validateRows_of_find?
    (h : registry.find? name version = some (schema.identified name version))
    (mode : UnknownFields) (rows : List Record) :
    registry.validateRows name version mode.name (rows.map .object) =
      (((schema.identified name version).report mode rows).logLines,
        .ok ((schema.identified name version).report mode rows)) := by
  rw [validateRows, lookup_eq_ok_iff.mpr h]
  simp only [Schema.validateRows_records, Except.mapError]

end Found

/-- A registration that succeeds enters its schema. -/
theorem entered?_of_result_eq_ok {earlier : List Call} {schema stored : Schema}
    (h : ((run earlier).register name version (.schema schema)).result = .ok stored)
    (later : List Call) :
    entered? name version (earlier ++ .register name version (.schema schema) :: later) =
      some schema := by
  obtain ⟨hfrozen, hname, hversion, hentered, -⟩ :=
    (result_run_eq_ok_iff earlier name version (.schema schema)).mp ⟨stored, h⟩
  rw [entered?_append hfrozen, hentered, Option.none_or, entered?, Call.offer?,
    if_pos ⟨⟨rfl, rfl⟩, hname, hversion⟩, Option.some_or]

/--
Validation after any calls.  A call that has succeeded has entered its schema.  When a schema has
been entered under two names, a record is validated as by that schema, under the identity of the
names, whatever calls follow.  Records always have a report, which tells what becomes of each of
them alone, and it and all it holds are under this identity.  When none of the calls has entered a
schema under the names, nothing is validated and the version is told to be unknown.
-/
theorem validate_run (calls : List Call) (name version : Text) :
    (∀ earlier schema later stored,
      calls = earlier ++ Call.register name version (.schema schema) :: later →
      ((run earlier).register name version (.schema schema)).result = .ok stored →
      entered? name version calls = some schema) ∧
    (∀ schema, entered? name version calls = some schema →
      ∀ (later : List Call) (mode : UnknownFields),
        (∀ record : Record,
          (run (calls ++ later)).validate name version mode.name (.object record) =
            .ok ((schema.validate mode record).relabelled (Identity.of name version))) ∧
        ∀ rows : List Record, ∃ report outcomes,
          (run (calls ++ later)).validateRows name version mode.name (rows.map .object) =
            (report.logLines, .ok report) ∧
          List.Forall₂ (fun row outcome =>
            (run (calls ++ later)).validate name version mode.name (.object row) = .ok outcome)
            rows outcomes ∧
          report.Tells (Identity.of name version) outcomes ∧
          (∀ record ∈ report.accepted, record.identity = Identity.of name version) ∧
          ∀ rejection ∈ report.rejected,
            rejection.failure.identity = Identity.of name version) ∧
    (entered? name version calls = none → ∀ (mode : Text) (value : Value) (rows : List Value),
      ∃ error, error.IsUnknown name version ∧
        (run calls).validate name version mode value = .error (.registry error) ∧
        (run calls).validateRows name version mode rows = ([], .error (.registry error))) := by
  refine ⟨?_, ?_, ?_⟩
  · rintro earlier schema later stored rfl h
    exact entered?_of_result_eq_ok h later
  · intro schema hentered later mode
    have hfound : (run (calls ++ later)).find? name version =
        some (schema.identified name version) := by
      apply find?_run_append
      rw [find?_run, hentered, Option.map_some]
    refine ⟨validate_of_find? hfound mode, ?_⟩
    intro rows
    have hreport := Report.tells_ofOutcomes (Identity.of name version)
      (rows.map ((schema.identified name version).validate mode))
    have hidentity : ∀ outcome ∈ rows.map ((schema.identified name version).validate mode),
        outcome.identity = Identity.of name version := by
      rw [List.forall_mem_map]
      intro row _
      rw [Schema.validate_identified, Outcome.identity_relabelled]
    refine ⟨_, _, validateRows_of_find? hfound mode rows, ?_, hreport, ?_, ?_⟩
    · rw [List.forall₂_map_right_iff, List.forall₂_same]
      intro row _
      rw [validate_of_find? hfound mode, Schema.validate_identified]
    · exact fun record hrecord => hidentity _ (hreport.mem_of_accepted hrecord)
    · exact fun rejection hrejection => hidentity _ (hreport.mem_of_rejected hrejection)
  · intro hentered mode value rows
    have hcontains : (run calls).contains name version = false := by
      rw [contains_eq_isSome, find?_run, hentered]
      rfl
    obtain ⟨error, hunknown, herror⟩ := exists_lookup_eq_error hcontains
    refine ⟨error, hunknown, ?_, ?_⟩
    · rw [validate, herror]
    · rw [validateRows, herror]

namespace ValidationWitness

/-- A schema without fields is registered twice, and after a freeze under other names. -/
def calls : List Call :=
  [.register "r" "v" (.schema RunWitness.bare), .register "r" "v" (.schema RunWitness.bare),
    .freeze, .register "r" "w" (.schema RunWitness.bare)]

theorem bare_validated :
    (run calls).validate "r" "v" "ignore" (.object [("x", .null)]) =
      .ok (.accepted ⟨Identity.of "r" "v", []⟩) ∧
    ∃ error, error.IsUnknown "r" "w" ∧
      (run calls).validate "r" "w" "ignore" .null = .error (.registry error) := by
  obtain ⟨-, hentered, -⟩ := validate_run calls "r" "v"
  obtain ⟨-, -, hunknown⟩ := validate_run calls "r" "w"
  obtain ⟨hvalidate, -⟩ := hentered RunWitness.bare rfl [] .ignore
  obtain ⟨error, herror, hfails, -⟩ := hunknown rfl "ignore" .null []
  exact ⟨hvalidate [("x", .null)], error, herror, hfails⟩

/-- The only registration fails for want of a fingerprint, and still its schema validates. -/
theorem unwritable_validated :
    let call := Call.register "r" "v" (.schema RunWitness.unwritable)
    (¬ ∃ stored, ((run []).register "r" "v" (.schema RunWitness.unwritable)).result = .ok stored) ∧
      (run [call]).validate "r" "v" "ignore" (.object [("a", .string "x")]) =
        .ok (.accepted ⟨Identity.of "r" "v", [("a", .string "x")]⟩) := by
  intro call
  have hfound := find?_run [call] "r" "v"
  refine ⟨?_, validate_of_find? hfound .ignore [("a", .string "x")]⟩
  rw [result_run_eq_ok_iff]
  rintro ⟨-, -, -, -, schema, hschema, hfree⟩
  cases hschema
  exact absurd hfree (by decide)

end ValidationWitness

end Registry

end RecordRegistry
