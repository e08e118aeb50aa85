import RecordRegistry.Proofs.Registry.RegisterAll

/-!
# The order of registrations

A registry keeps its registries and their versions in the order in which they were made, but nothing
that can be asked of it depends on this order: every view is determined by what is found under which
names.
-/

namespace RecordRegistry

instance : Std.Asymm Entry.Before := ⟨fun _ _ => Entry.Before.asymm⟩

/-- The call that registers the schema of an entry under its names. -/
def Entry.call (entry : Entry) : Call :=
  .register entry.registry entry.version (.schema entry.schema)

namespace Registry

/-- Two registries answer every question alike. Where one of them fails, the other one fails with
the same error, which tells the same known versions or registries in the same words. -/
structure SameViews (a b : Registry) : Prop where
  lookup : ∀ name version, a.lookup name version = b.lookup name version
  listVersions : ∀ name, a.listVersions name = b.listVersions name
  names : a.names = b.names
  sorted : a.sorted = b.sorted
  size : a.size = b.size
  contains : ∀ name version, a.contains name version = b.contains name version

/-- Nothing but what is found under which names makes a difference. -/
theorem SameViews.of_find? {a b : Registry} (ha : a.WellFormed) (hb : b.WellFormed)
    (hfind : ∀ name version, a.find? name version = b.find? name version) : a.SameViews b := by
  have hcontains (name version : Text) : a.contains name version = b.contains name version := by
    rw [contains_eq_isSome, contains_eq_isSome, hfind]
  have hnames : a.names = b.names := by
    refine ha.pairwise_lt_names.eq_of_mem_iff hb.pairwise_lt_names fun name => ?_
    simp only [ha.mem_names, hb.mem_names, hcontains]
  have hversions (name : Text) : a.versionsOf name = b.versionsOf name := by
    refine (ha.pairwise_lt_versionsOf name).eq_of_mem_iff (hb.pairwise_lt_versionsOf name) ?_
    intro version
    rw [mem_versionsOf, mem_versionsOf, hcontains]
  have hsorted : a.sorted = b.sorted := by
    refine ha.pairwise_before_sorted.eq_of_mem_iff hb.pairwise_before_sorted ?_
    rintro ⟨name, version, schema⟩
    rw [ha.mem_sorted, hb.mem_sorted, hfind]
  have hversionsFor (name : Text) (asked : Option Text) :
      a.versionsFor name asked = b.versionsFor name asked := by
    rw [versionsFor, versionsFor, hnames, hversions]
  constructor
  · intro name version
    rw [Registry.lookup, Registry.lookup, hversionsFor, hfind]
  · intro name
    rw [Registry.listVersions, Registry.listVersions, hversionsFor]
  · exact hnames
  · exact hsorted
  · rw [← length_sorted, ← length_sorted, hsorted]
  · exact hcontains

/-- Schemas to which there is no objection are entered call by call. -/
theorem Admits.foldl_step_eq {registry : Registry} {offered : List Entry}
    (h : registry.Admits offered) :
    (offered.map Entry.call).foldl step registry = registry.extended offered := by
  induction offered generalizing registry with
  | nil => rfl
  | cons entry rest ih =>
      rw [List.map_cons, List.foldl_cons, Entry.call, h.accepts.step_eq]
      exact ih h.tail

theorem admits_empty {triples : List Entry}
    (hnamed : ∀ triple ∈ triples, triple.registry ≠ "" ∧ triple.version ≠ "")
    (hkeys : (triples.map Entry.key).Nodup) : empty.Admits triples where
  not_frozen := rfl
  named := hnamed
  not_held _ _ := rfl
  nodup := hkeys

/--
Schemas under distinct pairs of names with text are registered on a new registry, once in one order
and once in another one.  Either registry gains just these schemas, the two answer every question
alike, and in either order those registrations succeed whose schemas are free of surrogates in names
and choices.
-/
theorem register_perm {triples others : List Entry} (hperm : triples.Perm others)
    (hnamed : ∀ triple ∈ triples, triple.registry ≠ "" ∧ triple.version ≠ "")
    (hkeys : (triples.map Entry.key).Nodup) :
    empty.Gains triples (run (triples.map Entry.call)) ∧
      empty.Gains others (run (others.map Entry.call)) ∧
      (run (triples.map Entry.call)).SameViews (run (others.map Entry.call)) ∧
      ∀ earlier triple later, others = earlier ++ triple :: later →
        ((∃ stored, ((run (earlier.map Entry.call)).register triple.registry triple.version
            (.schema triple.schema)).result = .ok stored) ↔
          ∀ text ∈ triple.schema.names ++ triple.schema.choices, text.SurrogateFree) := by
  have hnamed' : ∀ triple ∈ others, triple.registry ≠ "" ∧ triple.version ≠ "" :=
    fun triple htriple => hnamed triple (hperm.mem_iff.mpr htriple)
  have hkeys' : (others.map Entry.key).Nodup := (hperm.map Entry.key).nodup_iff.mp hkeys
  have hfirst := admits_empty hnamed hkeys
  have hsecond := admits_empty hnamed' hkeys'
  refine ⟨?_, ?_, ?_, ?_⟩
  · rw [run, hfirst.foldl_step_eq]
    exact hfirst.gains .empty
  · rw [run, hsecond.foldl_step_eq]
    exact hsecond.gains .empty
  · refine .of_find? (wellFormed_run _) (wellFormed_run _) fun name version => ?_
    refine Option.ext fun schema => ?_
    rw [run, run, hfirst.foldl_step_eq, hsecond.foldl_step_eq, hfirst.find?_extended_eq_some_iff,
      hsecond.find?_extended_eq_some_iff]
    simp only [hperm.mem_iff]
  · rintro earlier triple later rfl
    have haccepts := hsecond.of_append_right.accepts
    rw [run, hsecond.of_append_left.foldl_step_eq, haccepts.register_eq, result_announce_eq_ok_iff,
      ← Schema.exists_fingerprint_iff]
    rfl

namespace EntryOrderWitness

/-- The versions of one registry around that of another one. -/
def triples : List Entry :=
  [⟨"r", "w", RunWitness.bare⟩, ⟨"q", "v", RunWitness.bare⟩, ⟨"r", "v", RunWitness.bare⟩]

/-- The entries are kept in another order, and still all questions are answered alike. -/
theorem triples_reversed :
    run (triples.map Entry.call) ≠ run (triples.reverse.map Entry.call) ∧
    (run (triples.map Entry.call)).SameViews (run (triples.reverse.map Entry.call)) := by
  have hnamed : ∀ triple ∈ triples, triple.registry ≠ "" ∧ triple.version ≠ "" := by decide
  have hkeys : (triples.map Entry.key).Nodup := by decide
  obtain ⟨hfirst, hsecond, hviews, -⟩ :=
    register_perm (List.reverse_perm triples).symm hnamed hkeys
  refine ⟨?_, hviews⟩
  rw [hfirst.eq_extended, hsecond.eq_extended]
  decide

/-- Registering a schema under a pair of names that has text and comes once need not succeed. -/
theorem unwritable_not_ok :
    let triple : Entry := ⟨"r", "v", RunWitness.unwritable⟩
    (triple.registry ≠ "" ∧ triple.version ≠ "") ∧ ([triple].map Entry.key).Nodup ∧
    ¬ ∃ stored, (empty.register triple.registry triple.version (.schema triple.schema)).result =
      .ok stored := by
  refine ⟨by decide, by decide, ?_⟩
  have haccepts : empty.Accepts "r" "v" := ⟨rfl, by decide, by decide, rfl⟩
  rw [haccepts.register_eq, result_announce_eq_ok_iff]
  obtain ⟨e, he⟩ := RunWitness.exists_fingerprint_unwritable_eq_error
  rintro ⟨fingerprint, hfingerprint⟩
  cases he.symm.trans hfingerprint

end EntryOrderWitness

end Registry

end RecordRegistry
