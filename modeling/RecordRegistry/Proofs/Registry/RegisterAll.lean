import RecordRegistry.Proofs.Registry.Views
import RecordRegistry.Registry.Builtin

/-!
# Schemas entered one after the other

Of schemas that are offered one after the other, a registry gains those before the first one that
is refused, and keeps them. So the built-in schemas are gained as a whole only by an open registry
that holds none of them; one that holds some of them gains what is declared before the first of
these. Of the built-in registry the content is known: the built-in schemas and no others.
-/

namespace RecordRegistry

namespace Entry

/-- The two names of an entry. -/
def key (entry : Entry) : Text × Text := (entry.registry, entry.version)

/-- An entry whose schema is under the identity of its names. -/
def identified (entry : Entry) : Entry :=
  { entry with schema := entry.schema.identified entry.registry entry.version }

theorem map_key_identified (entries : List Entry) :
    (entries.map identified).map key = entries.map key :=
  List.map_map

end Entry

namespace Registry

/-- A registry with further entries, each under the identity of its names. -/
def extended (registry : Registry) (gained : List Entry) : Registry :=
  gained.foldl (fun registry entry =>
    registry.insert entry.registry entry.version entry.identified.schema) registry

/-- Whether a schema stands under the names of an entry. -/
def holds (registry : Registry) (entry : Entry) : Bool :=
  registry.contains entry.registry entry.version

/-- Nothing speaks against any of the schemas that are offered to a registry. -/
structure Admits (registry : Registry) (offered : List Entry) : Prop where
  not_frozen : registry.frozen = false
  named : ∀ entry ∈ offered, entry.registry ≠ "" ∧ entry.version ≠ ""
  not_held : ∀ entry ∈ offered, registry.holds entry = false
  nodup : (offered.map Entry.key).Nodup

theorem extended_append (registry : Registry) (earlier later : List Entry) :
    registry.extended (earlier ++ later) = (registry.extended earlier).extended later :=
  List.foldl_append

theorem frozen_extended (registry : Registry) (gained : List Entry) :
    (registry.extended gained).frozen = registry.frozen := by
  induction gained generalizing registry with
  | nil => rfl
  | cons entry rest ih => exact ih _

theorem WellFormed.extended {registry : Registry} (h : registry.WellFormed) (gained : List Entry) :
    (registry.extended gained).WellFormed := by
  induction gained generalizing registry with
  | nil => exact h
  | cons entry rest ih => exact ih (h.insert _ _ _)

theorem holds_insert {registry : Registry} {entry other : Entry} {schema : Schema} :
    (registry.insert entry.registry entry.version schema).holds other = true ↔
      other.key = entry.key ∨ registry.holds other = true := by
  rw [holds, holds, contains_eq_isSome, contains_eq_isSome, find?_insert, Entry.key, Entry.key,
    Prod.mk.injEq]
  split
  · next hsame => simp [hsame]
  · next hsame => simp [hsame]

theorem holds_extended {registry : Registry} {gained : List Entry} {entry : Entry}
    (h : registry.holds entry = true) : (registry.extended gained).holds entry = true := by
  induction gained generalizing registry with
  | nil => exact h
  | cons first rest ih => exact ih (holds_insert.mpr (.inr h))

section RegisterAll

variable {registry : Registry} {entry : Entry} {offered : List Entry}

theorem Admits.accepts (h : registry.Admits (entry :: offered)) :
    registry.Accepts entry.registry entry.version where
  not_frozen := h.not_frozen
  name_ne := (h.named entry List.mem_cons_self).1
  version_ne := (h.named entry List.mem_cons_self).2
  find?_eq_none := by
    have hheld := h.not_held entry List.mem_cons_self
    rwa [holds, contains_eq_isSome, Option.isSome_eq_false_iff, Option.isNone_iff_eq_none] at hheld

/-- A schema that has been entered is no objection to the others. -/
theorem Admits.tail (h : registry.Admits (entry :: offered)) :
    (registry.extended [entry]).Admits offered where
  not_frozen := h.not_frozen
  named other hother := h.named other (List.mem_cons_of_mem entry hother)
  not_held other hother := by
    obtain ⟨hnew, -⟩ := List.nodup_cons.mp h.nodup
    rw [← Bool.not_eq_true, extended, List.foldl_cons, List.foldl_nil, holds_insert, not_or,
      Bool.not_eq_true]
    refine ⟨?_, h.not_held other (List.mem_cons_of_mem entry hother)⟩
    intro hkey
    exact hnew (hkey ▸ List.mem_map_of_mem hother)
  nodup := (List.nodup_cons.mp h.nodup).2

theorem Admits.of_append_left {earlier later : List Entry}
    (h : registry.Admits (earlier ++ later)) : registry.Admits earlier where
  not_frozen := h.not_frozen
  named entry hentry := h.named entry (List.mem_append_left later hentry)
  not_held entry hentry := h.not_held entry (List.mem_append_left later hentry)
  nodup := (List.nodup_append.mp (List.map_append ▸ h.nodup)).1

theorem Admits.of_append_right {earlier later : List Entry}
    (h : registry.Admits (earlier ++ later)) : (registry.extended earlier).Admits later := by
  induction earlier generalizing registry with
  | nil => exact h
  | cons entry rest ih => exact ih h.tail

/-- Schemas to which there is no objection and which all have a fingerprint are entered before all
that follow them. -/
theorem registerAll_append (h : registry.Admits offered)
    (hwritable : ∀ entry ∈ offered, ∃ fingerprint, entry.schema.fingerprint = .ok fingerprint)
    (later : List Entry) :
    (registry.registerAll (offered ++ later)).registry =
        ((registry.extended offered).registerAll later).registry ∧
      (registry.registerAll (offered ++ later)).result =
        ((registry.extended offered).registerAll later).result := by
  induction offered generalizing registry with
  | nil => exact ⟨rfl, rfl⟩
  | cons entry rest ih =>
      have hregister := h.accepts.register_eq entry.schema
      obtain ⟨stored, hstored⟩ := (result_announce_eq_ok_iff
        (registry.insert entry.registry entry.version entry.identified.schema)
        entry.identified).mpr (hwritable entry List.mem_cons_self)
      have hregistry := registry_announce
        (registry.insert entry.registry entry.version entry.identified.schema) entry.identified
      rw [List.cons_append, registerAll, hregister]
      simp only [Entry.identified] at hstored hregistry
      simp only [hstored, hregistry]
      exact ih h.tail fun other hother => hwritable other (List.mem_cons_of_mem entry hother)

theorem registerAll_of_admits (h : registry.Admits offered)
    (hwritable : ∀ entry ∈ offered, ∃ fingerprint, entry.schema.fingerprint = .ok fingerprint) :
    (registry.registerAll offered).registry = registry.extended offered ∧
      (registry.registerAll offered).result = .ok () := by
  have hall := registerAll_append h hwritable []
  rwa [List.append_nil] at hall

theorem registerAll_of_frozen (h : registry.frozen = true) (later : List Entry) :
    (registry.registerAll (entry :: later)).registry = registry ∧
      (registry.registerAll (entry :: later)).result =
        .error (.frozen entry.registry entry.version) := by
  simp [registerAll, register, h, refuse]

theorem registerAll_of_holds (hfrozen : registry.frozen = false)
    (hnames : entry.registry ≠ "" ∧ entry.version ≠ "") (h : registry.holds entry = true)
    (later : List Entry) :
    (registry.registerAll (entry :: later)).registry = registry ∧
      (registry.registerAll (entry :: later)).result =
        .error (.duplicate entry.registry entry.version) := by
  rw [holds] at h
  simp [registerAll, register, hfrozen, hnames, h, refuse]

/-- What is found in a registry that has gained entries was found before or is one of them. -/
theorem Admits.find?_extended_eq_some_iff (h : registry.Admits offered) {name version : Text}
    {schema : Schema} :
    (registry.extended offered).find? name version = some schema ↔
      registry.find? name version = some schema ∨ ∃ entry ∈ offered,
        entry.registry = name ∧ entry.version = version ∧
          schema = entry.schema.identified name version := by
  induction offered generalizing registry with
  | nil => simp [extended]
  | cons entry rest ih =>
      have hinsert : (registry.extended [entry]).find? name version = some schema ↔
          registry.find? name version = some schema ∨
            (entry.registry = name ∧ entry.version = version ∧
              schema = entry.schema.identified name version) := by
        rw [extended, List.foldl_cons, List.foldl_nil, find?_insert]
        by_cases hsame : name = entry.registry ∧ version = entry.version
        · obtain ⟨rfl, rfl⟩ := hsame
          simp [h.accepts.find?_eq_none, Entry.identified, eq_comm]
        · have hsame' : ¬ (entry.registry = name ∧ entry.version = version) :=
            fun h => hsame ⟨h.1.symm, h.2.symm⟩
          simp [hsame, ← and_assoc, hsame']
      rw [← List.singleton_append, extended_append, ih h.tail, hinsert, or_assoc]
      simp

/-- The entries of a registry that has gained some are its old ones and those. -/
theorem Admits.sorted_extended_perm (h : registry.Admits offered)
    (hregistry : registry.WellFormed) :
    (registry.extended offered).sorted.Perm (registry.sorted ++ offered.map Entry.identified) := by
  have hnew : (offered.map Entry.identified).Nodup := by
    apply List.Nodup.of_map Entry.key
    rw [Entry.map_key_identified]
    exact h.nodup
  have hnodup : (registry.sorted ++ offered.map Entry.identified).Nodup := by
    refine List.nodup_append.mpr ⟨hregistry.nodup_sorted, hnew, ?_⟩
    rintro _ hold _ hoffered rfl
    obtain ⟨entry, hentry, rfl⟩ := List.mem_map.mp hoffered
    have hheld := h.not_held entry hentry
    rw [holds, contains_eq_isSome, hregistry.mem_sorted.mp hold] at hheld
    cases hheld
  rw [List.perm_ext_iff_of_nodup (hregistry.extended offered).nodup_sorted hnodup]
  rintro ⟨name, version, schema⟩
  rw [(hregistry.extended offered).mem_sorted, h.find?_extended_eq_some_iff, List.mem_append,
    hregistry.mem_sorted, List.mem_map]
  refine or_congr_right ⟨?_, ?_⟩
  · rintro ⟨entry, hentry, rfl, rfl, rfl⟩
    exact ⟨entry, hentry, rfl⟩
  · rintro ⟨entry, hentry, heq⟩
    cases heq
    exact ⟨entry, hentry, rfl, rfl, rfl⟩

end RegisterAll

/-- A registry has become another one by gaining entries: to those that it had, unchanged, come the
gained ones under the identity of their names, and nothing else is found in it. -/
structure Gains (registry : Registry) (gained : List Entry) (after : Registry) : Prop where
  eq_extended : after = registry.extended gained
  size_eq : after.size = registry.size + gained.length
  lookup_eq_ok_iff : ∀ name version schema, after.lookup name version = .ok schema ↔
    registry.lookup name version = .ok schema ∨ ∃ entry ∈ gained,
      entry.registry = name ∧ entry.version = version ∧
        schema = entry.schema.identified name version

theorem Admits.gains {registry : Registry} {gained : List Entry} (h : registry.Admits gained)
    (hregistry : registry.WellFormed) : registry.Gains gained (registry.extended gained) where
  eq_extended := rfl
  size_eq := by
    have hlength := (h.sorted_extended_perm hregistry).length_eq
    rwa [List.length_append, List.length_map, length_sorted, length_sorted] at hlength
  lookup_eq_ok_iff name version schema := by
    rw [Registry.lookup_eq_ok_iff, Registry.lookup_eq_ok_iff, h.find?_extended_eq_some_iff]

/-- Registrations are logged for those who ask for everything. -/
theorem level_of_mem_log_register {registry : Registry} {name version : Text}
    {candidate : Candidate} {line : LogLine}
    (h : line ∈ (registry.register name version candidate).log) : line.level = .debug := by
  rcases registry.register_cases name version candidate with
    ⟨⟨error, hrefused, -⟩, -⟩ | ⟨haccepts, schema, rfl⟩
  · rw [hrefused] at h
    cases h
  · rw [haccepts.register_eq, announce] at h
    split at h
    · cases h
    · rw [List.mem_singleton.mp h, logLine]

theorem level_of_mem_log_registerAll {registry : Registry} {offered : List Entry} {line : LogLine}
    (h : line ∈ (registry.registerAll offered).log) : line.level = .debug := by
  induction offered generalizing registry with
  | nil => cases h
  | cons entry rest ih =>
      rw [registerAll] at h
      split at h
      · exact level_of_mem_log_register h
      · exact (List.mem_append.mp h).elim level_of_mem_log_register ih

/-- If one of the offered entries is held already, there is a first such one. -/
theorem exists_first_held {registry : Registry} {offered : List Entry}
    (h : ∃ entry ∈ offered, registry.holds entry = true) :
    ∃ earlier entry later, offered = earlier ++ entry :: later ∧
      (∀ other ∈ earlier, registry.holds other = false) ∧ registry.holds entry = true := by
  rw [← List.find?_isSome, Option.isSome_iff_exists] at h
  obtain ⟨entry, hentry⟩ := h
  obtain ⟨hheld, earlier, later, hsplit, hearlier⟩ := List.find?_eq_some_iff_append.mp hentry
  exact ⟨earlier, entry, later, hsplit, fun other hother => by simpa using hearlier other hother,
    hheld⟩

theorem names_builtin_ne_empty :
    ∀ entry ∈ Builtin.entries, entry.registry ≠ "" ∧ entry.version ≠ "" := by
  decide

/-- No name or choice of a built-in schema holds a surrogate. -/
theorem exists_fingerprint_builtin :
    ∀ entry ∈ Builtin.entries, ∃ fingerprint, entry.schema.fingerprint = .ok fingerprint := by
  simp only [Schema.exists_fingerprint_iff]
  decide

/-- The names of the built-in schemas have text and are distinct, so that only a freeze or a schema
under the same names can speak against one of them. -/
theorem admits_of_prefix_builtin {registry : Registry} {offered : List Entry}
    (hfirst : offered <+: Builtin.entries) (hfrozen : registry.frozen = false)
    (hheld : ∀ entry ∈ offered, registry.holds entry = false) : registry.Admits offered where
  not_frozen := hfrozen
  named entry hentry := names_builtin_ne_empty entry (hfirst.subset hentry)
  not_held := hheld
  nodup := by
    have hnodup : (Builtin.entries.map Entry.key).Nodup := by decide
    exact hnodup.sublist (hfirst.sublist.map Entry.key)

/-- The built-in schemas are refused by a frozen registry, gained by an open one that holds none of
them, and gained up to the first one that is held by any other. -/
theorem addBuiltins_cases (registry : Registry) :
    registry.frozen = true ∧ registry.addBuiltins.registry = registry ∧
      registry.addBuiltins.result = .error (.frozen "applications-benchmarks" "main") ∨
    registry.Admits Builtin.entries ∧
      registry.addBuiltins.registry = registry.extended Builtin.entries ∧
      registry.addBuiltins.result = .ok () ∨
    registry.frozen = false ∧ ∃ earlier entry later, Builtin.entries = earlier ++ entry :: later ∧
      registry.Admits earlier ∧ registry.holds entry = true ∧
      registry.addBuiltins.registry = registry.extended earlier ∧
      registry.addBuiltins.result = .error (.duplicate entry.registry entry.version) := by
  by_cases hfrozen : registry.frozen = true
  · exact .inl ⟨hfrozen, registerAll_of_frozen hfrozen _⟩
  rw [Bool.not_eq_true] at hfrozen
  by_cases hheld : ∃ entry ∈ Builtin.entries, registry.holds entry = true
  · obtain ⟨earlier, entry, later, hsplit, hearlier, hentry⟩ := exists_first_held hheld
    have hadmits : registry.Admits earlier :=
      admits_of_prefix_builtin ⟨entry :: later, hsplit.symm⟩ hfrozen hearlier
    have hnames := names_builtin_ne_empty entry (by simp [hsplit])
    have hopen : (registry.extended earlier).frozen = false :=
      (frozen_extended registry earlier).trans hfrozen
    have hlast := registerAll_of_holds hopen hnames (holds_extended hentry) later
    have hall := registerAll_append hadmits
      (fun other hother => exists_fingerprint_builtin other (by simp [hsplit, hother]))
      (entry :: later)
    refine .inr (.inr ⟨hfrozen, earlier, entry, later, hsplit, hadmits, hentry, ?_⟩)
    rw [addBuiltins, hsplit]
    exact ⟨hall.1.trans hlast.1, hall.2.trans hlast.2⟩
  · have hadmits : registry.Admits Builtin.entries :=
      admits_of_prefix_builtin (List.prefix_refl _) hfrozen (by simpa using hheld)
    exact .inr (.inl ⟨hadmits, registerAll_of_admits hadmits exists_fingerprint_builtin⟩)

/--
The built-in schemas are offered to a registry after any calls.  It gains all of them, and then
there is no error, exactly when it is open and holds none of them.  If there is an error, a frozen
registry is as it was, and an open one has gained what is declared before the first built-in schema
that it held already, whose names the error tells.
-/
theorem addBuiltins_run (calls : List Call) :
    let registry := run calls
    (registry.addBuiltins.result = .ok () ↔
      registry.frozen = false ∧ ∀ entry ∈ Builtin.entries, registry.holds entry = false) ∧
    (registry.addBuiltins.result = .ok () →
      registry.Gains Builtin.entries registry.addBuiltins.registry) ∧
    ∀ error, registry.addBuiltins.result = .error error →
      registry.frozen = true ∧ error = .frozen "applications-benchmarks" "main" ∧
        registry.addBuiltins.registry = registry ∨
      registry.frozen = false ∧ ∃ earlier entry later,
        Builtin.entries = earlier ++ entry :: later ∧
        (∀ other ∈ earlier, registry.holds other = false) ∧ registry.holds entry = true ∧
        error = .duplicate entry.registry entry.version ∧
        registry.Gains earlier registry.addBuiltins.registry := by
  intro registry
  have hregistry : registry.WellFormed := wellFormed_run calls
  rcases registry.addBuiltins_cases with
    ⟨hfrozen, hafter, h⟩ | ⟨hadmits, hafter, h⟩ |
      ⟨hfrozen, earlier, entry, later, hsplit, hadmits, hentry, hafter, h⟩
  · rw [h, hafter]
    refine ⟨by simp [hfrozen], by simp, ?_⟩
    intro error herror
    cases herror
    exact .inl ⟨hfrozen, rfl, rfl⟩
  · rw [h, hafter]
    refine ⟨by simpa [hadmits.not_frozen] using hadmits.not_held,
      fun _ => hadmits.gains hregistry, ?_⟩
    intro error herror
    cases herror
  · rw [h, hafter]
    refine ⟨?_, by simp, ?_⟩
    · simp only [reduceCtorEq, false_iff, not_and]
      intro _ hnone
      have hheld := hnone entry (by simp [hsplit])
      rw [hentry] at hheld
      cases hheld
    · intro error herror
      cases herror
      exact .inr ⟨hfrozen, earlier, entry, later, hsplit, hadmits.not_held, hentry, rfl,
        hadmits.gains hregistry⟩

namespace RegisterAllWitness

/-- An open registry that holds the fourth of the built-in pairs and none of the others. -/
def calls : List Call := [.register "datasheet" "current" (.schema RunWitness.bare)]

/-- What the call leaves behind. -/
def held : Registry :=
  empty.insert "datasheet" "current" (RunWitness.bare.identified "datasheet" "current")

theorem run_calls : run calls = held := by
  have haccepts : empty.Accepts "datasheet" "current" := ⟨rfl, by decide, by decide, rfl⟩
  exact haccepts.step_eq RunWitness.bare

/-- The built-in schemas that are declared before a held one stay in a registry that refuses it. -/
theorem addBuiltins_ne :
    (run calls).addBuiltins.result = .error (.duplicate "datasheet" "current") ∧
    (run calls).addBuiltins.registry ≠ run calls ∧
    (run calls).contains "applications-benchmarks" "main" = false ∧
    (run calls).addBuiltins.registry.contains "applications-benchmarks" "main" = true := by
  rw [run_calls]
  have hadmits : held.Admits (Builtin.entries.take 3) :=
    admits_of_prefix_builtin (List.take_prefix 3 Builtin.entries) rfl (by decide)
  have hholds : (held.extended (Builtin.entries.take 3)).holds
      ⟨"datasheet", Builtin.onlyVersion, Builtin.datasheet⟩ = true := by decide
  have hlast := registerAll_of_holds rfl (by decide) hholds (Builtin.entries.drop 4)
  have hall := registerAll_append hadmits
    (fun other hother => exists_fingerprint_builtin other (List.mem_of_mem_take hother))
    (Builtin.entries.drop 3)
  have hregistry := hall.1.trans hlast.1
  refine ⟨hall.2.trans hlast.2, ?_, by decide, ?_⟩
  · rw [addBuiltins, ← List.take_append_drop 3 Builtin.entries, hregistry]
    decide
  · rw [addBuiltins, ← List.take_append_drop 3 Builtin.entries, hregistry]
    decide

end RegisterAllWitness

/-! ## The built-in registry -/

theorem admits_builtin : empty.Admits Builtin.entries :=
  admits_of_prefix_builtin (List.prefix_refl _) rfl fun _ _ => rfl

theorem builtin_eq : builtin = (empty.extended Builtin.entries).freeze := by
  rw [builtin, addBuiltins, (registerAll_of_admits admits_builtin exists_fingerprint_builtin).1]

/-- The built-in registry holds the built-in schemas under the identity of their names. -/
theorem lookup_builtin_eq_ok_iff {name version : Text} {schema : Schema} :
    builtin.lookup name version = .ok schema ↔ ∃ entry ∈ Builtin.entries,
      entry.registry = name ∧ entry.version = version ∧
        schema = entry.schema.identified name version := by
  have hfreeze : builtin.find? name version = (empty.extended Builtin.entries).find? name version :=
    congrArg (·.find? name version) builtin_eq
  have hempty : empty.find? name version = none := rfl
  rw [lookup_eq_ok_iff, hfreeze, admits_builtin.find?_extended_eq_some_iff, hempty]
  simp

/-- The built-in registries are those of the built-in schemas. -/
theorem mem_names_builtin {name : Text} :
    name ∈ builtin.names ↔ ∃ entry ∈ Builtin.entries, entry.registry = name := by
  have hbuiltin : builtin.WellFormed := by
    rw [builtin_eq]
    exact (WellFormed.empty.extended Builtin.entries).freeze
  simp only [hbuiltin.mem_names, contains_iff_exists_find?, ← lookup_eq_ok_iff,
    lookup_builtin_eq_ok_iff]
  constructor
  · rintro ⟨version, schema, entry, hentry, hname, -⟩
    exact ⟨entry, hentry, hname⟩
  · rintro ⟨entry, hentry, hname⟩
    exact ⟨_, _, entry, hentry, hname, rfl, rfl⟩

end Registry

end RecordRegistry
