import RecordRegistry.Proofs.Fingerprint
import RecordRegistry.Registry

/-!
# Runs of a registry

Calls that register schemas and freeze a registry are made one after the other on a new one. What
they have entered is told from the calls alone: under two names stands the schema of the first call
that offered one for them, made before any freeze. A registration tells of its entry with a
fingerprint when the entry has been made, so that a schema without one is entered all the same,
although the call fails.
-/

namespace RecordRegistry

/-- A call that can change a registry. -/
inductive Call where
  | register (name version : Text) (candidate : Candidate)
  | freeze

/-- The schema that a call offers under two names, both of which must have text. -/
def Call.offer? (name version : Text) : Call → Option Schema
  | register other key (.schema schema) =>
      if (other = name ∧ key = version) ∧ name ≠ "" ∧ version ≠ "" then some schema else none
  | _ => none

namespace Registry

/-- The registry after a call, whether or not the call fails. -/
def step (registry : Registry) : Call → Registry
  | .register name version candidate => (registry.register name version candidate).registry
  | .freeze => registry.freeze

/-- The registry after calls on a new one. -/
def run (calls : List Call) : Registry := calls.foldl step empty

/-- The schema that calls enter under two names: the first that they offer before a freeze. -/
def entered? (name version : Text) : List Call → Option Schema
  | [] => none
  | .freeze :: _ => none
  | call@(.register _ _ _) :: later => (call.offer? name version).or (entered? name version later)

/-- What speaks against a candidate for two names after some calls. -/
inductive Objection (calls : List Call) (name version : Text) (candidate : Candidate) :
    RegistryError → Prop
  | frozen (h : Call.freeze ∈ calls) :
      Objection calls name version candidate (.frozen name version)
  | emptyName (h : name = "" ∨ version = "") : Objection calls name version candidate .emptyName
  | notASchema {value : Json.Value} (h : candidate = .other value) :
      Objection calls name version candidate (.notASchema value.typeName)
  | duplicate (h : entered? name version calls ≠ none) :
      Objection calls name version candidate (.duplicate name version)
  | surrogate {schema : Schema} {error : Text.SurrogateError} (h : candidate = .schema schema)
      (hfingerprint : schema.fingerprint = .error error) :
      Objection calls name version candidate (.surrogate error)

end Registry

/-- The order in which the errors of a registration take precedence. -/
def RegistryError.rank : RegistryError → Nat
  | frozen _ _ => 0
  | emptyName => 1
  | notASchema _ => 2
  | duplicate _ _ => 3
  | surrogate _ => 4
  | unknownVersion _ _ _ => 5
  | unknownRegistry _ _ _ => 6

namespace Registry

/-! ## What a call does -/

/-- Nothing speaks against an entry under two names. -/
structure Accepts (registry : Registry) (name version : Text) : Prop where
  not_frozen : registry.frozen = false
  name_ne : name ≠ ""
  version_ne : version ≠ ""
  find?_eq_none : registry.find? name version = none

section Step

variable {registry : Registry} {name version : Text} {schema : Schema}

theorem contains_eq_isSome (registry : Registry) (name version : Text) :
    registry.contains name version = (registry.find? name version).isSome := rfl

theorem versions_insert (registry : Registry) (name version other : Text) (schema : Schema) :
    (registry.insert name version schema).versions other =
      if other = name then (registry.versions name).set version schema
      else registry.versions other := by
  rw [versions, insert, Entries.lookup_set]
  split <;> rfl

/-- A schema that has been put in is found under its names, and elsewhere what was found before. -/
theorem find?_insert (registry : Registry) (name version other key : Text) (schema : Schema) :
    (registry.insert name version schema).find? other key =
      if other = name ∧ key = version then some schema else registry.find? other key := by
  rw [find?, versions_insert]
  by_cases hname : other = name
  · rw [if_pos hname, Entries.lookup_set, hname]
    simp only [true_and]
    rfl
  · simp [hname, find?]

@[simp]
theorem registry_announce (registry : Registry) (entry : Entry) :
    (registry.announce entry).registry = registry := by
  rw [announce]
  split <;> rfl

/-- A schema against which nothing speaks is put in. -/
theorem Accepts.register_eq (h : registry.Accepts name version) (schema : Schema) :
    registry.register name version (.schema schema) =
      (registry.insert name version (schema.identified name version)).announce
        ⟨name, version, schema.identified name version⟩ := by
  rw [register, if_neg (by simp [h.not_frozen]), if_neg (by simp [h.name_ne, h.version_ne])]
  simp only [contains_eq_isSome, h.find?_eq_none, Option.isSome_none, Bool.false_eq_true, if_false]

theorem Accepts.step_eq (h : registry.Accepts name version) (schema : Schema) :
    registry.step (.register name version (.schema schema)) =
      registry.insert name version (schema.identified name version) := by
  rw [step, h.register_eq, registry_announce]

/-- A candidate is refused and leaves the registry as it was, or it is a schema against which
nothing speaks. -/
theorem register_cases (registry : Registry) (name version : Text) (candidate : Candidate) :
    ((∃ error, registry.register name version candidate = registry.refuse error ∧
        ∀ e, error ≠ .surrogate e) ∧
      ∀ schema, candidate = .schema schema → ¬ registry.Accepts name version) ∨
    registry.Accepts name version ∧ ∃ schema, candidate = .schema schema := by
  unfold register
  by_cases hfrozen : registry.frozen = true
  · rw [if_pos hfrozen]
    refine .inl ⟨⟨_, rfl, nofun⟩, fun _ _ haccepts => ?_⟩
    exact absurd hfrozen (by simp [haccepts.not_frozen])
  rw [if_neg hfrozen]
  by_cases hempty : name = "" ∨ version = ""
  · rw [if_pos hempty]
    refine .inl ⟨⟨_, rfl, nofun⟩, fun _ _ haccepts => ?_⟩
    exact hempty.elim haccepts.name_ne haccepts.version_ne
  rw [if_neg hempty]
  cases candidate with
  | other value => exact .inl ⟨⟨_, rfl, nofun⟩, nofun⟩
  | schema schema =>
      by_cases hcontains : registry.contains name version = true
      · simp only [if_pos hcontains]
        refine .inl ⟨⟨_, rfl, nofun⟩, fun _ _ haccepts => ?_⟩
        rw [contains_eq_isSome, haccepts.find?_eq_none] at hcontains
        cases hcontains
      · rw [not_or] at hempty
        rw [contains_eq_isSome, Option.not_isSome_iff_eq_none] at hcontains
        exact .inr ⟨⟨Bool.not_eq_true _ ▸ hfrozen, hempty.1, hempty.2, hcontains⟩, schema, rfl⟩

/-- A call enters what it offers, if the registry is open and nothing stands under the names. -/
theorem find?_step (registry : Registry) (call : Call) (name version : Text) :
    (registry.step call).find? name version =
      (registry.find? name version).or
        (if registry.frozen then none
          else (call.offer? name version).map (·.identified name version)) := by
  cases call with
  | freeze => simp [step, freeze, find?, versions, Call.offer?]
  | register other key candidate =>
      rcases registry.register_cases other key candidate with
        ⟨⟨error, h, -⟩, hrefused⟩ | ⟨haccepts, schema, rfl⟩
      · rw [step, h, refuse]
        cases hfound : registry.find? name version with
        | some found => rfl
        | none =>
            -- what is offered for names without an entry is refused for another reason
            cases candidate with
            | other value => simp [Call.offer?]
            | schema schema =>
                have hnot := hrefused schema rfl
                simp only [Call.offer?, Option.none_or]
                split_ifs with hfrozen hoffer
                · rfl
                · obtain ⟨⟨rfl, rfl⟩, hname, hversion⟩ := hoffer
                  exact absurd ⟨Bool.not_eq_true _ ▸ hfrozen, hname, hversion, hfound⟩ hnot
                · rfl
      · rw [haccepts.step_eq, find?_insert, haccepts.not_frozen, Call.offer?]
        by_cases hsame : name = other ∧ version = key
        · obtain ⟨rfl, rfl⟩ := hsame
          simp [haccepts.find?_eq_none, haccepts.name_ne, haccepts.version_ne]
        · have hsame' : ¬ (other = name ∧ key = version) := fun h => hsame ⟨h.1.symm, h.2.symm⟩
          simp [hsame, hsame']

theorem frozen_step (registry : Registry) (call : Call) :
    (registry.step call).frozen = true ↔ registry.frozen = true ∨ call = .freeze := by
  cases call with
  | freeze => simp [step, freeze]
  | register name version candidate =>
      simp only [reduceCtorEq, or_false]
      rcases registry.register_cases name version candidate with
        ⟨⟨error, h, -⟩, -⟩ | ⟨haccepts, schema, rfl⟩
      · rw [step, h, refuse]
      · rw [haccepts.step_eq, insert]

/-- Further calls enter what they offer before a freeze under names where nothing stands. -/
theorem find?_foldl_step (registry : Registry) (calls : List Call) (name version : Text) :
    (calls.foldl step registry).find? name version =
      (registry.find? name version).or
        (if registry.frozen then none
          else (entered? name version calls).map (·.identified name version)) := by
  induction calls generalizing registry with
  | nil => simp [entered?]
  | cons call later ih =>
      rw [List.foldl_cons, ih, find?_step]
      cases call with
      | freeze => simp [step, freeze, entered?, Call.offer?]
      | register other key candidate =>
          have hfrozen :
              (registry.step (.register other key candidate)).frozen = registry.frozen := by
            rw [Bool.eq_iff_iff, frozen_step]
            simp
          rw [hfrozen, entered?]
          cases registry.frozen with
          | false => simp [Option.or_assoc, Option.map_or]
          | true => simp

theorem frozen_foldl_step (registry : Registry) (calls : List Call) :
    (calls.foldl step registry).frozen = true ↔ registry.frozen = true ∨ Call.freeze ∈ calls := by
  induction calls generalizing registry with
  | nil => simp
  | cons call later ih =>
      rw [List.foldl_cons, ih, frozen_step, List.mem_cons, or_assoc, eq_comm (a := Call.freeze)]

end Step

/-! ## What calls do -/

theorem run_append (calls later : List Call) : run (calls ++ later) = later.foldl step (run calls) :=
  List.foldl_append

theorem run_concat (calls : List Call) (call : Call) : run (calls ++ [call]) = (run calls).step call :=
  run_append calls [call]

/-- Calls without a freeze leave it to later ones to enter what they have not. -/
theorem entered?_append {calls : List Call} (h : Call.freeze ∉ calls) (name version : Text)
    (later : List Call) :
    entered? name version (calls ++ later) =
      (entered? name version calls).or (entered? name version later) := by
  induction calls with
  | nil => rfl
  | cons call rest ih =>
      rw [List.mem_cons, not_or] at h
      cases call with
      | freeze => exact absurd rfl h.1
      | register other key candidate =>
          rw [List.cons_append, entered?, entered?, ih h.2, Option.or_assoc]

theorem frozen_run (calls : List Call) : (run calls).frozen = true ↔ Call.freeze ∈ calls := by
  rw [run, frozen_foldl_step]
  simp [empty]

/-- What is found after calls is what they have entered, under the identity of its names. -/
theorem find?_run (calls : List Call) (name version : Text) :
    (run calls).find? name version =
      (entered? name version calls).map (·.identified name version) := by
  rw [run, find?_foldl_step]
  simp [empty, find?, versions]

/-- What has been entered stays. -/
theorem find?_run_append {calls : List Call} {name version : Text} {schema : Schema}
    (h : (run calls).find? name version = some schema) (later : List Call) :
    (run (calls ++ later)).find? name version = some schema := by
  rw [run_append, find?_foldl_step, h, Option.some_or]

/-! ## What holds at any time -/

/-- No name stands twice, no registry is kept without a version, and schemas are under the identity
of their names. -/
structure WellFormed (registry : Registry) : Prop where
  nodup_names : registry.registries.names.Nodup
  nodup_versions : ∀ name, (registry.versions name).names.Nodup
  exists_contains : ∀ name ∈ registry.registries.names,
    ∃ version, registry.contains name version = true
  identity_eq : ∀ name version schema, registry.find? name version = some schema →
    schema.identity = Identity.of name version

namespace WellFormed

theorem empty : Registry.empty.WellFormed where
  nodup_names := List.nodup_nil
  nodup_versions _ := List.nodup_nil
  exists_contains _ h := absurd h List.not_mem_nil
  identity_eq _ _ _ h := by cases h

variable {registry : Registry}

theorem freeze (h : registry.WellFormed) : registry.freeze.WellFormed :=
  ⟨h.nodup_names, h.nodup_versions, h.exists_contains, h.identity_eq⟩

theorem insert (h : registry.WellFormed) (name version : Text) (schema : Schema) :
    (registry.insert name version (schema.identified name version)).WellFormed where
  nodup_names := Entries.nodup_names_set h.nodup_names
  nodup_versions other := by
    rw [versions_insert]
    split
    · exact Entries.nodup_names_set (h.nodup_versions name)
    · exact h.nodup_versions other
  exists_contains other hother := by
    simp only [contains_eq_isSome, find?_insert]
    by_cases hname : other = name
    · exact ⟨version, by simp [hname]⟩
    · obtain ⟨key, hkey⟩ := h.exists_contains other
        ((Entries.mem_names_set.mp hother).resolve_left hname)
      exact ⟨key, by rw [if_neg (by simp [hname]), ← contains_eq_isSome, hkey]⟩
  identity_eq other key stored hstored := by
    rw [find?_insert] at hstored
    split at hstored
    · next hsame =>
      cases hstored
      rw [hsame.1, hsame.2]
      rfl
    · exact h.identity_eq other key stored hstored

theorem step (h : registry.WellFormed) (call : Call) : (registry.step call).WellFormed := by
  cases call with
  | freeze => exact h.freeze
  | register name version candidate =>
      rcases registry.register_cases name version candidate with
        ⟨⟨error, hrefused, -⟩, -⟩ | ⟨haccepts, schema, rfl⟩
      · rw [Registry.step, hrefused, refuse]
        exact h
      · rw [haccepts.step_eq]
        exact h.insert name version schema

end WellFormed

theorem wellFormed_run (calls : List Call) : (run calls).WellFormed := by
  suffices h : ∀ registry : Registry, registry.WellFormed →
      (calls.foldl step registry).WellFormed from h empty .empty
  induction calls with
  | nil => exact fun registry h => h
  | cons call later ih => exact fun registry h => ih _ (h.step call)

section Known

variable {registry : Registry} {name version : Text}

/-- A version is listed when it has a schema. -/
theorem mem_versionsOf :
    version ∈ registry.versionsOf name ↔ registry.contains name version = true := by
  rw [versionsOf, List.mem_mergeSort, contains, Entries.has, ← Decidable.not_iff_not,
    ← Entries.lookup_eq_none_iff_not_mem_names, Bool.not_eq_true, Option.isSome_eq_false_iff,
    Option.isNone_iff_eq_none]

theorem mem_names_of_contains (h : registry.contains name version = true) :
    name ∈ registry.names := by
  rw [names, List.mem_mergeSort]
  apply Decidable.byContradiction
  intro hname
  rw [contains, versions, Entries.lookup_eq_none_iff_not_mem_names.mpr hname] at h
  cases h

/-- A registry is listed when it has a version. -/
theorem WellFormed.mem_names (h : registry.WellFormed) :
    name ∈ registry.names ↔ ∃ version, registry.contains name version = true := by
  constructor
  · rw [names, List.mem_mergeSort]
    exact h.exists_contains name
  · rintro ⟨version, hversion⟩
    exact mem_names_of_contains hversion

/-- A schema that can be looked up is one that stands under the names. -/
theorem lookup_eq_ok_iff {schema : Schema} :
    registry.lookup name version = .ok schema ↔ registry.find? name version = some schema := by
  rw [lookup, versionsFor]
  by_cases hname : name ∈ registry.names
  · rw [if_pos hname]
    cases registry.find? name version <;> simp
  · rw [if_neg hname]
    simp only [reduceCtorEq, false_iff]
    intro h
    have hcontains : registry.contains name version = true := by
      rw [contains_eq_isSome, h]
      rfl
    exact hname (mem_names_of_contains hcontains)

end Known

/-! ## When a registration succeeds -/

section Register

variable {calls : List Call} {name version : Text}

/-- Nothing speaks against an entry after calls without a freeze that have entered nothing under
the two names, if both have text. -/
theorem accepts_run_iff : (run calls).Accepts name version ↔
    Call.freeze ∉ calls ∧ name ≠ "" ∧ version ≠ "" ∧ entered? name version calls = none := by
  rw [← frozen_run, Bool.not_eq_true, ← Option.map_eq_none_iff (f := (·.identified name version)),
    ← find?_run]
  exact ⟨fun h => ⟨h.1, h.2, h.3, h.4⟩, fun h => ⟨h.1, h.2.1, h.2.2.1, h.2.2.2⟩⟩

/-- Telling of an entry fails when its schema has no fingerprint. -/
theorem result_announce_eq_ok_iff (registry : Registry) (entry : Entry) :
    (∃ stored, (registry.announce entry).result = .ok stored) ↔
      ∃ fingerprint, entry.schema.fingerprint = .ok fingerprint := by
  rw [announce]
  cases entry.schema.fingerprint <;> simp

theorem result_announce_eq_error_iff {registry : Registry} {entry : Entry} {error : RegistryError} :
    (registry.announce entry).result = .error error ↔
      ∃ e, entry.schema.fingerprint = .error e ∧ error = .surrogate e := by
  rw [announce]
  cases entry.schema.fingerprint <;> simp [eq_comm]

/-- A registration that succeeds, or fails for want of a fingerprint, makes an entry. -/
theorem accepts_of_result {registry : Registry} {candidate : Candidate}
    (h : (∃ stored, (registry.register name version candidate).result = .ok stored) ∨
      ∃ e, (registry.register name version candidate).result = .error (.surrogate e)) :
    registry.Accepts name version := by
  rcases registry.register_cases name version candidate with
    ⟨⟨error, hrefused, hne⟩, -⟩ | ⟨haccepts, -⟩
  · rw [hrefused, refuse] at h
    rcases h with ⟨stored, hok⟩ | ⟨e, herror⟩
    · cases hok
    · exact absurd (Except.error.inj herror) (hne e)
  · exact haccepts

/-- A registration after calls fails with the first of the objections to it. -/
theorem objection_of_result_eq_error {candidate : Candidate} {error : RegistryError}
    (h : ((run calls).register name version candidate).result = .error error) :
    Objection calls name version candidate error ∧
      ∀ other, Objection calls name version candidate other → error.rank ≤ other.rank := by
  unfold register at h
  by_cases hfrozen : (run calls).frozen = true
  · rw [if_pos hfrozen] at h
    cases h
    exact ⟨.frozen ((frozen_run calls).mp hfrozen), fun other _ => Nat.zero_le _⟩
  rw [if_neg hfrozen] at h
  rw [frozen_run] at hfrozen
  by_cases hempty : name = "" ∨ version = ""
  · rw [if_pos hempty] at h
    cases h
    refine ⟨.emptyName hempty, ?_⟩
    intro other hother
    cases hother with
    | frozen h => exact absurd h hfrozen
    | _ => simp [RegistryError.rank]
  rw [if_neg hempty] at h
  cases candidate with
  | other value =>
      cases h
      refine ⟨.notASchema rfl, ?_⟩
      intro other hother
      cases hother with
      | frozen h => exact absurd h hfrozen
      | emptyName h => exact absurd h hempty
      | _ => simp [RegistryError.rank]
  | schema schema =>
      have hcontains : (run calls).contains name version = true ↔
          entered? name version calls ≠ none := by
        rw [contains_eq_isSome, find?_run, Option.isSome_map, Option.isSome_iff_ne_none]
      by_cases htaken : (run calls).contains name version = true
      · simp only [if_pos htaken] at h
        cases h
        refine ⟨.duplicate (hcontains.mp htaken), ?_⟩
        intro other hother
        cases hother with
        | frozen h => exact absurd h hfrozen
        | emptyName h => exact absurd h hempty
        | notASchema h => cases h
        | _ => simp [RegistryError.rank]
      · simp only [if_neg htaken] at h
        obtain ⟨e, hfingerprint, rfl⟩ := result_announce_eq_error_iff.mp h
        refine ⟨.surrogate rfl hfingerprint, ?_⟩
        intro other hother
        cases hother with
        | frozen h => exact absurd h hfrozen
        | emptyName h => exact absurd h hempty
        | notASchema h => cases h
        | duplicate h => exact absurd (hcontains.mpr h) htaken
        | surrogate _ _ => exact Nat.le_refl _

/-- A registration after calls succeeds when nothing speaks against the entry and its schema has a
fingerprint. -/
theorem result_run_eq_ok_iff (calls : List Call) (name version : Text) (candidate : Candidate) :
    (∃ stored, ((run calls).register name version candidate).result = .ok stored) ↔
      Call.freeze ∉ calls ∧ name ≠ "" ∧ version ≠ "" ∧ entered? name version calls = none ∧
        ∃ schema, candidate = .schema schema ∧
          ∀ text ∈ schema.names ++ schema.choices, text.SurrogateFree := by
  simp only [← Schema.exists_fingerprint_iff]
  constructor
  · intro h
    obtain ⟨hfrozen, hname, hversion, hentered⟩ := accepts_run_iff.mp (accepts_of_result (.inl h))
    refine ⟨hfrozen, hname, hversion, hentered, ?_⟩
    rcases (run calls).register_cases name version candidate with
      ⟨⟨error, hrefused, -⟩, -⟩ | ⟨haccepts, schema, rfl⟩
    · rw [hrefused, refuse] at h
      obtain ⟨stored, hstored⟩ := h
      cases hstored
    · rw [haccepts.register_eq, result_announce_eq_ok_iff] at h
      exact ⟨schema, rfl, h⟩
  · rintro ⟨hfrozen, hname, hversion, hentered, schema, rfl, hfingerprint⟩
    have haccepts := accepts_run_iff.mpr ⟨hfrozen, hname, hversion, hentered⟩
    rw [haccepts.register_eq, result_announce_eq_ok_iff]
    exact hfingerprint

end Register

/--
A registration after any calls.  It succeeds exactly when none of them was a freeze, both names
have text, none has entered a schema under them, and a schema is offered whose names and choices
are free of surrogates.  If it fails, then with the first of the objections to it, and the registry
stays as it was, unless a surrogate is all there is to object to.  In that case, as when it
succeeds, the schemas under other names stay the same, and whatever follows, its own is found with
its fields and description under the identity of the names.  At no time is a registry listed without
a version.
-/
theorem register_run (calls : List Call) (name version : Text) (candidate : Candidate) :
    let call := Call.register name version candidate
    let result := ((run calls).register name version candidate).result
    ((∃ stored, result = .ok stored) ↔
      Call.freeze ∉ calls ∧ name ≠ "" ∧ version ≠ "" ∧ entered? name version calls = none ∧
        ∃ schema, candidate = .schema schema ∧
          ∀ text ∈ schema.names ++ schema.choices, text.SurrogateFree) ∧
    (∀ error, result = .error error →
      (Objection calls name version candidate error ∧
        ∀ other, Objection calls name version candidate other → error.rank ≤ other.rank) ∧
      (run (calls ++ [call]) = run calls ∨ ∃ e, error = .surrogate e)) ∧
    (∀ schema, candidate = .schema schema →
      (∃ stored, result = .ok stored) ∨ (∃ e, result = .error (.surrogate e)) →
        (∀ other key stored, (other, key) ≠ (name, version) →
          ((run (calls ++ [call])).lookup other key = .ok stored ↔
            (run calls).lookup other key = .ok stored)) ∧
        ∀ later, ∃ stored, (run (calls ++ call :: later)).lookup name version = .ok stored ∧
          stored.fields = schema.fields ∧ stored.description = schema.description ∧
          stored.identity = Identity.of name version) ∧
    ∀ listed ∈ (run (calls ++ [call])).names, (run (calls ++ [call])).versionsOf listed ≠ [] := by
  refine ⟨result_run_eq_ok_iff calls name version candidate, ?_, ?_, ?_⟩
  · intro error h
    refine ⟨objection_of_result_eq_error h, ?_⟩
    rw [run_concat, step]
    rcases (run calls).register_cases name version candidate with
      ⟨⟨refused, hrefused, -⟩, -⟩ | ⟨haccepts, schema, rfl⟩
    · exact .inl (by rw [hrefused, refuse])
    · rw [haccepts.register_eq] at h
      obtain ⟨e, -, rfl⟩ := result_announce_eq_error_iff.mp h
      exact .inr ⟨e, rfl⟩
  · rintro schema rfl h
    have haccepts := accepts_of_result h
    have hstep : run (calls ++ [.register name version (.schema schema)]) =
        (run calls).insert name version (schema.identified name version) := by
      rw [run_concat, haccepts.step_eq]
    refine ⟨?_, ?_⟩
    · intro other key stored hne
      rw [lookup_eq_ok_iff, lookup_eq_ok_iff, hstep, find?_insert, if_neg]
      rintro ⟨rfl, rfl⟩
      exact hne rfl
    · intro later
      refine ⟨schema.identified name version, ?_, rfl, rfl, rfl⟩
      rw [List.append_cons, lookup_eq_ok_iff]
      apply find?_run_append
      rw [hstep, find?_insert, if_pos ⟨rfl, rfl⟩]
  · intro listed hlisted
    obtain ⟨key, hkey⟩ := (wellFormed_run _).mem_names.mp hlisted
    exact List.ne_nil_of_mem (mem_versionsOf.mpr hkey)

namespace RunWitness

/-- A schema without fields. -/
def bare : Schema := ⟨[], List.nodup_nil, Identity.unknown, none⟩

/-- A registration that is made again and after a freeze counts once. -/
theorem bare_registered_once :
    let call := Call.register "r" "v" (.schema bare)
    (∃ stored, (run [call, call, .freeze, call]).lookup ("r" : Text) "v" = .ok stored ∧
      stored.identity = Identity.of "r" "v") ∧
    ¬ ∃ stored,
      ((run [call, call, .freeze]).register "r" "v" (.schema bare)).result = .ok stored := by
  intro call
  have hfirst := register_run [] "r" "v" (.schema bare)
  have hlast := register_run [call, call, .freeze] "r" "v" (.schema bare)
  have hok := hfirst.1.mpr
    ⟨List.not_mem_nil, by decide, by decide, rfl, bare, rfl, by decide⟩
  obtain ⟨-, hlater⟩ := hfirst.2.2.1 bare rfl (.inl hok)
  obtain ⟨stored, hstored, -, -, hidentity⟩ := hlater [call, .freeze, call]
  refine ⟨⟨stored, hstored, hidentity⟩, ?_⟩
  intro hagain
  exact (hlast.1.mp hagain).1 (by simp)

/-- A schema that has no fingerprint, since one of its choices has no bytes. -/
def unwritable : Schema :=
  ⟨[⟨"a", by decide, .plain (.enum ⟨["x", Text.lone], by decide, by decide⟩)⟩], by decide,
    Identity.unknown, none⟩

theorem exists_fingerprint_unwritable_eq_error : ∃ e, unwritable.fingerprint = .error e := by
  cases hfingerprint : unwritable.fingerprint with
  | error e => exact ⟨e, rfl⟩
  | ok fingerprint =>
      have hfree := unwritable.exists_fingerprint_iff.mp ⟨fingerprint, hfingerprint⟩
      exact absurd hfree (by decide)

/-- A schema without a fingerprint is offered to a new registry under two names with text. The
registration fails, and its entry stays. -/
theorem unwritable_registered :
    let change := empty.register "r" "v" (.schema unwritable)
    (∃ e, change.result = .error (.surrogate e)) ∧ change.registry ≠ empty ∧
      change.registry.contains "r" "v" = true := by
  intro change
  have haccepts : empty.Accepts "r" "v" := ⟨rfl, by decide, by decide, rfl⟩
  have hchange := haccepts.register_eq unwritable
  have hregistry : change.registry = empty.insert "r" "v" (unwritable.identified "r" "v") :=
    (congrArg Change.registry hchange).trans (registry_announce _ _)
  obtain ⟨e, he⟩ := exists_fingerprint_unwritable_eq_error
  refine ⟨⟨e, ?_⟩, ?_, ?_⟩
  · exact (congrArg Change.result hchange).trans (result_announce_eq_error_iff.mpr ⟨e, he, rfl⟩)
  · rw [hregistry]
    decide
  · rw [hregistry]
    decide

end RunWitness

end Registry

end RecordRegistry
