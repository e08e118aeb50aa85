import Mathlib.Algebra.GroupWithZero.Nat
import RecordRegistry.Proofs.Entries
import RecordRegistry.Proofs.Registry.Runs
import RecordRegistry.Proofs.Text.Ascending

/-!
# The views of a registry

Whatever calls are made, no name stands twice in a registry and none without a version. Looking a
schema up, asking for the names of registries, for the versions of one of them and for all entries
in order are therefore views of one and the same content.
-/

namespace RecordRegistry

namespace Entry

/-- An entry comes before another one in the order of registries, and of versions within a
registry. -/
def Before (a b : Entry) : Prop :=
  a.registry < b.registry ∨ a.registry = b.registry ∧ a.version < b.version

theorem Before.asymm {a b : Entry} (h : a.Before b) : ¬ b.Before a := by
  rintro (hba | ⟨hname, hba⟩)
  · rcases h with hab | ⟨hname, -⟩
    · exact Text.lt_asymm hab hba
    · exact Text.ne_of_lt hba hname.symm
  · rcases h with hab | ⟨-, hab⟩
    · exact Text.ne_of_lt hab hname.symm
    · exact Text.lt_asymm hab hba

end Entry

namespace Registry

section Views

variable {registry : Registry} {name version : Text}

/-- The schema that is found under two names is the one of the entry. -/
theorem WellFormed.mem_sorted (h : registry.WellFormed) {schema : Schema} :
    ⟨name, version, schema⟩ ∈ registry.sorted ↔ registry.find? name version = some schema := by
  simp only [sorted, List.mem_flatMap, List.mem_mergeSort, List.mem_map, Entry.mk.injEq]
  constructor
  · rintro ⟨named, hnamed, entry, hentry, rfl, rfl, rfl⟩
    have hversions : registry.versions named.1 = named.2 := by
      rw [versions, (Entries.lookup_eq_some_iff_mem h.nodup_names).mpr hnamed, Option.getD_some]
    rw [find?, Entries.lookup_eq_some_iff_mem (h.nodup_versions named.1), hversions]
    exact hentry
  · intro hfound
    rw [find?, Entries.lookup_eq_some_iff_mem (h.nodup_versions name)] at hfound
    have hlookup : registry.registries.lookup name = some (registry.versions name) := by
      cases hnone : registry.registries.lookup name with
      | some entries => rw [versions, hnone, Option.getD_some]
      | none =>
          rw [versions, hnone] at hfound
          exact absurd hfound List.not_mem_nil
    exact ⟨_, (Entries.lookup_eq_some_iff_mem h.nodup_names).mp hlookup, _, hfound, rfl, rfl, rfl⟩

theorem contains_iff_exists_find? : registry.contains name version = true ↔
    ∃ schema, registry.find? name version = some schema := by
  rw [contains_eq_isSome, Option.isSome_iff_exists]

theorem WellFormed.pairwise_lt_names (h : registry.WellFormed) :
    registry.names.Pairwise (· < ·) :=
  Text.pairwise_lt_mergeSort h.nodup_names

theorem WellFormed.pairwise_lt_versionsOf (h : registry.WellFormed) (name : Text) :
    (registry.versionsOf name).Pairwise (· < ·) :=
  Text.pairwise_lt_mergeSort (h.nodup_versions name)

/-- The entries come in the order of their names, those of one registry together. -/
theorem WellFormed.pairwise_before_sorted (h : registry.WellFormed) :
    registry.sorted.Pairwise Entry.Before := by
  rw [sorted, List.pairwise_flatMap]
  constructor
  · intro named hnamed
    have hversions : registry.versions named.1 = named.2 := by
      rw [List.mem_mergeSort, ← Entries.lookup_eq_some_iff_mem h.nodup_names] at hnamed
      rw [versions, hnamed, Option.getD_some]
    have hlt := Entries.pairwise_lt_names_mergeSort (h.nodup_versions named.1)
    rw [hversions, Entries.names, List.pairwise_map] at hlt
    rw [List.pairwise_map]
    exact hlt.imp fun hversion => .inr ⟨rfl, hversion⟩
  · have hlt := Entries.pairwise_lt_names_mergeSort h.nodup_names
    rw [Entries.names, List.pairwise_map] at hlt
    refine hlt.imp fun hname => ?_
    rintro _ hfirst _ hsecond
    obtain ⟨_, -, rfl⟩ := List.mem_map.mp hfirst
    obtain ⟨_, -, rfl⟩ := List.mem_map.mp hsecond
    exact .inl hname

/-- No entry comes twice. -/
theorem WellFormed.nodup_sorted (h : registry.WellFormed) : registry.sorted.Nodup := by
  refine h.pairwise_before_sorted.imp ?_
  rintro a b hbefore rfl
  exact hbefore.asymm hbefore

/-- A registry has as many entries as its registries have versions. -/
theorem size_eq_sum_lengths (registry : Registry) :
    registry.size = (registry.registries.map fun named => named.2.length).sum := by
  rw [size, List.sum_eq_foldl, List.foldl_map]

theorem length_sorted (registry : Registry) : registry.sorted.length = registry.size := by
  rw [size_eq_sum_lengths, sorted, List.length_flatMap]
  simp only [List.length_map, List.length_mergeSort]
  exact ((List.mergeSort_perm registry.registries _).map _).sum_nat

theorem WellFormed.size_eq_sum (h : registry.WellFormed) : registry.size =
    (registry.names.map fun listed => (registry.versionsOf listed).length).sum := by
  have hlength : ∀ named ∈ registry.registries,
      (registry.versionsOf named.1).length = named.2.length := by
    intro named hnamed
    rw [← Entries.lookup_eq_some_iff_mem h.nodup_names] at hnamed
    rw [versionsOf, List.length_mergeSort, versions, hnamed, Option.getD_some, Entries.names,
      List.length_map]
  have hnames : registry.names.Perm registry.registries.names := List.mergeSort_perm _ _
  rw [size_eq_sum_lengths, (hnames.map _).sum_nat, Entries.names, List.map_map,
    ← List.map_congr_left hlength]
  rfl

theorem listVersions_eq_ok_iff {versions : List Text} :
    registry.listVersions name = .ok versions ↔
      name ∈ registry.names ∧ versions = registry.versionsOf name := by
  rw [listVersions, versionsFor]
  split
  · next h => simp [h, eq_comm]
  · next h => simp [h]

theorem listVersions_eq_error_iff {error : RegistryError} :
    registry.listVersions name = .error error ↔
      name ∉ registry.names ∧ error = .unknownRegistry name none registry.names := by
  rw [listVersions, versionsFor]
  split
  · next h => simp [h]
  · next h => simp [h, eq_comm]

/-- Looking up fails for want of the registry, or of the version in it. -/
theorem lookup_eq_error_iff {error : RegistryError} :
    registry.lookup name version = .error error ↔
      name ∉ registry.names ∧ error = .unknownRegistry name (some version) registry.names ∨
      name ∈ registry.names ∧ version ∉ registry.versionsOf name ∧
        error = .unknownVersion name version (registry.versionsOf name) := by
  have hversion : version ∈ registry.versionsOf name ↔
      (registry.find? name version).isSome = true := by
    rw [mem_versionsOf, contains_eq_isSome]
  rw [lookup, versionsFor]
  by_cases hname : name ∈ registry.names
  · rw [if_pos hname, hversion]
    cases registry.find? name version <;> simp [hname, eq_comm]
  · rw [if_neg hname]
    simp [hname, eq_comm]

end Views

/--
The views of a registry after any calls.  A schema is found under two names exactly when there is
an entry with it, which is exactly when the registry is listed with the version, and it is one that
was entered under these names.  The entries come in strictly ascending order of their names, as many
as there are, and no registry is listed without a version.  What fails, fails for want of the
registry or of the version in it, and tells in strictly ascending order which ones there are.
-/
theorem views_agree (calls : List Call) (name version : Text) :
    let registry := run calls
    ((∀ schema, registry.lookup name version = .ok schema ↔
        ⟨name, version, schema⟩ ∈ registry.sorted) ∧
      (∀ schema, registry.lookup name version = .ok schema →
        schema.identity = Identity.of name version) ∧
      (registry.contains name version = true ↔
        ∃ schema, ⟨name, version, schema⟩ ∈ registry.sorted) ∧
      (registry.contains name version = true ↔ name ∈ registry.names ∧
        ∃ versions, registry.listVersions name = .ok versions ∧ version ∈ versions)) ∧
    (registry.sorted.Pairwise Entry.Before ∧ registry.size = registry.sorted.length ∧
      registry.size = (registry.names.map fun listed => (registry.versionsOf listed).length).sum) ∧
    (registry.names.Pairwise (· < ·) ∧ ∀ listed ∈ registry.names, ∃ versions,
      registry.listVersions listed = .ok versions ∧ versions ≠ [] ∧ versions.Pairwise (· < ·)) ∧
    (∀ error, registry.listVersions name = .error error ↔
      name ∉ registry.names ∧ error = .unknownRegistry name none registry.names) ∧
    ∀ error, registry.lookup name version = .error error ↔
      name ∉ registry.names ∧ error = .unknownRegistry name (some version) registry.names ∨
      ∃ versions, registry.listVersions name = .ok versions ∧ version ∉ versions ∧
        error = .unknownVersion name version versions := by
  intro registry
  have h : registry.WellFormed := wellFormed_run calls
  refine ⟨⟨?_, ?_, ?_, ?_⟩,
    ⟨h.pairwise_before_sorted, (length_sorted registry).symm, h.size_eq_sum⟩,
    ⟨h.pairwise_lt_names, ?_⟩, fun error => listVersions_eq_error_iff, ?_⟩
  · intro schema
    rw [lookup_eq_ok_iff, h.mem_sorted]
  · intro schema hlookup
    exact h.identity_eq name version schema (lookup_eq_ok_iff.mp hlookup)
  · simp only [h.mem_sorted]
    exact contains_iff_exists_find?
  · simp only [listVersions_eq_ok_iff]
    rw [← mem_versionsOf]
    constructor
    · intro hmem
      have hname : name ∈ registry.names := mem_names_of_contains (mem_versionsOf.mp hmem)
      exact ⟨hname, _, ⟨hname, rfl⟩, hmem⟩
    · rintro ⟨-, versions, ⟨-, rfl⟩, hmem⟩
      exact hmem
  · intro listed hlisted
    obtain ⟨key, hkey⟩ := h.mem_names.mp hlisted
    exact ⟨_, listVersions_eq_ok_iff.mpr ⟨hlisted, rfl⟩,
      List.ne_nil_of_mem (mem_versionsOf.mpr hkey), h.pairwise_lt_versionsOf listed⟩
  · intro error
    rw [lookup_eq_error_iff]
    simp only [listVersions_eq_ok_iff]
    refine or_congr_right ⟨?_, ?_⟩
    · rintro ⟨hname, hversion, herror⟩
      exact ⟨_, ⟨hname, rfl⟩, hversion, herror⟩
    · rintro ⟨versions, ⟨hname, rfl⟩, hversion, herror⟩
      exact ⟨hname, hversion, herror⟩

end Registry

end RecordRegistry
