import RecordRegistry.Proofs.Registry.Views

/-!
# The latest version of a registry

Of versions in a given order, the latest one is the first that can be looked up. Further calls only
add versions, so another answer can come only from further in front in the order.
-/

namespace RecordRegistry

/-- The answers between which the latest of ordered versions can change while versions are added:
from none to any of them, and from one of them to another that comes first at an earlier place. -/
inductive Advances (ordered : List Text) : Option Text → Option Text → Prop
  | same (answer : Option Text) : Advances ordered answer answer
  | found {version : Text} (hmem : version ∈ ordered) : Advances ordered none (some version)
  | overtaken {old version : Text} (hmem : version ∈ ordered)
      (hlt : ordered.idxOf version < ordered.idxOf old) :
      Advances ordered (some old) (some version)

section LatestVersion

variable {ordered available : List Text}

/-- The latest version is the one behind nothing but versions that are not available. -/
theorem latestVersion_eq_some_iff {version : Text} :
    latestVersion ordered (some available) = some version ↔ ∃ earlier later,
      ordered = earlier ++ version :: later ∧ (∀ other ∈ earlier, other ∉ available) ∧
        version ∈ available := by
  simp only [latestVersion, List.find?_eq_some_iff_append, decide_eq_true_eq, Bool.not_eq_true',
    decide_eq_false_iff_not]
  constructor
  · rintro ⟨hversion, earlier, later, hsplit, hearlier⟩
    exact ⟨earlier, later, hsplit, hearlier, hversion⟩
  · rintro ⟨earlier, later, hsplit, hearlier, hversion⟩
    exact ⟨hversion, earlier, later, hsplit, hearlier⟩

theorem latestVersion_eq_none_iff :
    latestVersion ordered (some available) = none ↔ ∀ version ∈ ordered, version ∉ available := by
  simp [latestVersion]

/-- The latest version comes first where no available one comes first before it. -/
theorem idxOf_latestVersion_lt {version other : Text}
    (h : latestVersion ordered (some available) = some version) (hother : other ∈ available)
    (hne : other ≠ version) : ordered.idxOf version < ordered.idxOf other := by
  obtain ⟨earlier, later, rfl, hearlier, hversion⟩ := latestVersion_eq_some_iff.mp h
  have hversion' : version ∉ earlier := fun hmem => hearlier version hmem hversion
  have hother' : other ∉ earlier := fun hmem => hearlier other hmem hother
  rw [List.idxOf_append_of_notMem hversion', List.idxOf_append_of_notMem hother',
    List.idxOf_cons_self, List.idxOf_cons_ne _ hne.symm]
  omega

/-- When more versions become available, the latest one stays or is overtaken. -/
theorem advances_latestVersion {wider : List Text} (hsubset : available ⊆ wider) :
    Advances ordered (latestVersion ordered (some available))
      (latestVersion ordered (some wider)) := by
  cases hnewer : latestVersion ordered (some wider) with
  | none =>
      have hnone : latestVersion ordered (some available) = none :=
        latestVersion_eq_none_iff.mpr fun version hmem havailable =>
          latestVersion_eq_none_iff.mp hnewer version hmem (hsubset havailable)
      rw [hnone]
      exact .same none
  | some version =>
      have hmem : version ∈ ordered := by
        obtain ⟨earlier, later, rfl, -, -⟩ := latestVersion_eq_some_iff.mp hnewer
        simp
      cases holder : latestVersion ordered (some available) with
      | none => exact .found hmem
      | some old =>
          obtain ⟨-, -, -, -, hold⟩ := latestVersion_eq_some_iff.mp holder
          by_cases hsame : old = version
          · rw [hsame]
            exact .same (some version)
          · exact .overtaken hmem (idxOf_latestVersion_lt hnewer (hsubset hold) hsame)

end LatestVersion

namespace Registry

section Listed

variable {registry : Registry} {name version : Text}

/-- A version is listed when it can be looked up. -/
theorem mem_versionsOf_iff_lookup_eq_ok :
    version ∈ registry.versionsOf name ↔ ∃ schema, registry.lookup name version = .ok schema := by
  simp only [lookup_eq_ok_iff]
  rw [mem_versionsOf, contains_iff_exists_find?]

theorem notMem_versionsOf_iff_lookup_eq_error :
    version ∉ registry.versionsOf name ↔
      ∃ error, registry.lookup name version = .error error := by
  rw [mem_versionsOf_iff_lookup_eq_ok]
  cases registry.lookup name version <;> simp

theorem latest_of_mem_names (h : name ∈ registry.names) (ordered : List Text) :
    registry.latest name ordered =
      .ok (latestVersion ordered (some (registry.versionsOf name))) := by
  rw [latest, listVersions_eq_ok_iff.mpr ⟨h, rfl⟩]
  rfl

/-- A resolver gives the answer that the registry gives itself. -/
theorem map_latest_resolver (registry : Registry) (name : Text) (ordered : List Text) :
    (registry.resolver name ordered).map VersionResolver.latest = registry.latest name ordered := by
  rw [resolver, latest]
  cases registry.listVersions name <;> rfl

end Listed

theorem contains_run_append {calls : List Call} {name version : Text}
    (h : (run calls).contains name version = true) (further : List Call) :
    (run (calls ++ further)).contains name version = true := by
  obtain ⟨schema, hschema⟩ := contains_iff_exists_find?.mp h
  exact contains_iff_exists_find?.mpr ⟨schema, find?_run_append hschema further⟩

theorem names_subset_run (calls further : List Call) :
    (run calls).names ⊆ (run (calls ++ further)).names := by
  intro name hname
  obtain ⟨version, hversion⟩ := (wellFormed_run calls).mem_names.mp hname
  exact mem_names_of_contains (contains_run_append hversion further)

theorem versionsOf_subset_run (calls further : List Call) (name : Text) :
    (run calls).versionsOf name ⊆ (run (calls ++ further)).versionsOf name := by
  intro version hversion
  exact mem_versionsOf.mpr (contains_run_append (mem_versionsOf.mp hversion) further)

/--
The latest of ordered versions of a registry that is listed after any calls, asked for directly or
through a resolver.  It is the version that can be looked up behind nothing but versions that
cannot, and there is none exactly when no version can be looked up.  Whatever calls follow, the
answer stays, or a version takes its place that comes first at an earlier place of the order.
-/
theorem latest_run {calls : List Call} {name : Text} (hname : name ∈ (run calls).names)
    (ordered : List Text) :
    ∃ answer, (run calls).latest name ordered = .ok answer ∧
      ((run calls).resolver name ordered).map VersionResolver.latest = .ok answer ∧
      (∀ version, answer = some version ↔ ∃ earlier later,
        ordered = earlier ++ version :: later ∧
        (∀ other ∈ earlier, ∃ error, (run calls).lookup name other = .error error) ∧
        ∃ schema, (run calls).lookup name version = .ok schema) ∧
      (answer = none ↔
        ∀ version ∈ ordered, ∃ error, (run calls).lookup name version = .error error) ∧
      ∀ further, ∃ newer, (run (calls ++ further)).latest name ordered = .ok newer ∧
        ((run (calls ++ further)).resolver name ordered).map VersionResolver.latest = .ok newer ∧
        Advances ordered answer newer := by
  have hanswer := latest_of_mem_names hname ordered
  refine ⟨_, hanswer, (map_latest_resolver _ name ordered).trans hanswer, ?_, ?_, ?_⟩
  · intro version
    simp only [latestVersion_eq_some_iff, notMem_versionsOf_iff_lookup_eq_error]
    simp only [mem_versionsOf_iff_lookup_eq_ok]
  · simp only [latestVersion_eq_none_iff, notMem_versionsOf_iff_lookup_eq_error]
  · intro further
    have hnewer := latest_of_mem_names (names_subset_run calls further hname) ordered
    exact ⟨_, hnewer, (map_latest_resolver _ name ordered).trans hnewer,
      advances_latestVersion (versionsOf_subset_run calls further name)⟩

namespace LatestWitness

/-- One version is registered. -/
def calls : List Call := [.register "r" "v" (.schema RunWitness.bare)]

/-- Another version is registered, and the registry is frozen. -/
def further : List Call := [.register "r" "w" (.schema RunWitness.bare), .freeze]

/-- An order with a version that is never registered and one that stands in it twice. -/
def ordered : List Text := ["x", "w", "v", "w"]

theorem run_calls : run calls = empty.insert "r" "v" (RunWitness.bare.identified "r" "v") := by
  have haccepts : empty.Accepts "r" "v" := ⟨rfl, by decide, by decide, rfl⟩
  exact haccepts.step_eq RunWitness.bare

theorem run_further : run (calls ++ further) =
    ((empty.insert "r" "v" (RunWitness.bare.identified "r" "v")).insert "r" "w"
      (RunWitness.bare.identified "r" "w")).freeze := by
  have haccepts : (run calls).Accepts "r" "w" := by
    rw [run_calls]
    exact ⟨rfl, by decide, by decide, rfl⟩
  rw [run_append, further, List.foldl_cons, haccepts.step_eq, run_calls]
  rfl

theorem version_overtaken :
    ("r" : Text) ∈ (run calls).names ∧ (run calls).latest "r" ordered = .ok (some "v") ∧
    (run (calls ++ further)).latest "r" ordered = .ok (some "w") ∧
    Advances ordered (some "v") (some "w") := by
  have hname : ("r" : Text) ∈ (run calls).names := by
    have hcontains : (run calls).contains "r" "v" = true := by
      rw [run_calls]
      decide
    exact mem_names_of_contains hcontains
  have hbefore : (run calls).latest "r" ordered = .ok (some "v") := by
    rw [latest_of_mem_names hname, Except.ok.injEq, latestVersion_eq_some_iff]
    simp only [mem_versionsOf, run_calls]
    exact ⟨["x", "w"], ["w"], rfl, by decide, by decide⟩
  have hafter : (run (calls ++ further)).latest "r" ordered = .ok (some "w") := by
    rw [latest_of_mem_names (names_subset_run calls further hname), Except.ok.injEq,
      latestVersion_eq_some_iff]
    simp only [mem_versionsOf, run_further]
    exact ⟨["x"], ["v", "w"], rfl, by decide, by decide⟩
  obtain ⟨answer, hanswer, -, -, -, hfurther⟩ := latest_run hname ordered
  obtain ⟨newer, hnewer, -, hadvances⟩ := hfurther further
  cases hbefore.symm.trans hanswer
  cases hafter.symm.trans hnewer
  exact ⟨hname, hbefore, hafter, hadvances⟩

end LatestWitness

end Registry

end RecordRegistry
