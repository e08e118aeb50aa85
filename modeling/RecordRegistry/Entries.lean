import RecordRegistry.Text

/-!
# Named entries in order

Pairs of a name and a value, in the order in which the names first came. Setting a name that is
there keeps its place and replaces its value.
-/

namespace RecordRegistry

/-- Values under names, in order. -/
abbrev Entries (α : Type) := List (Text × α)

namespace Entries

variable {α : Type}

/-- Sets the value under a name: at its place, or at the end for a new name. -/
def set (name : Text) (value : α) : Entries α → Entries α
  | [] => [(name, value)]
  | (other, old) :: rest =>
    if other = name then (name, value) :: rest else (other, old) :: set name value rest

/-- Sets one pair after the other. -/
def ofPairs (pairs : List (Text × α)) : Entries α :=
  pairs.foldl (fun entries pair => entries.set pair.1 pair.2) []

/-- The names, in order. -/
def names (entries : Entries α) : List Text := entries.map (·.1)

/-- Whether a name has a value. -/
def has (entries : Entries α) (name : Text) : Bool := (entries.lookup name).isSome

/-- A name without a value is none of the names. -/
theorem lookup_eq_none_iff_not_mem_names {name : Text} {entries : Entries α} :
    entries.lookup name = none ↔ name ∉ entries.names := by
  rw [List.lookup_eq_none_iff]
  simp only [names, List.mem_map, not_exists, not_and, bne_iff_ne]
  exact forall₂_congr fun _ _ => ne_comm

/-- With distinct names, a name has the value that stands beside it. -/
theorem lookup_eq_some_iff_mem {name : Text} {value : α} {entries : Entries α}
    (h : entries.names.Nodup) : entries.lookup name = some value ↔ (name, value) ∈ entries := by
  induction entries with
  | nil => simp
  | cons entry rest ih =>
    obtain ⟨first, old⟩ := entry
    obtain ⟨hfirst, hrest⟩ := List.nodup_cons.mp h
    by_cases hname : name = first
    · subst hname
      have hnot : (name, value) ∉ rest := fun hmem =>
        hfirst (List.mem_map.mpr ⟨(name, value), hmem, rfl⟩)
      simp [hnot, eq_comm]
    · simp [List.lookup_cons, beq_false_of_ne hname, hname, ih hrest]

/-- A name that has been set has its value, and every other name has what it had. -/
@[simp] theorem lookup_set (name other : Text) (value : α) (entries : Entries α) :
    (set name value entries).lookup other =
      if other = name then some value else entries.lookup other := by
  induction entries with
  | nil =>
    by_cases h : other = name
    · simp [set, h]
    · simp [set, List.lookup_cons, beq_false_of_ne h, h]
  | cons entry rest ih =>
    obtain ⟨first, old⟩ := entry
    by_cases hfirst : first = name
    · subst hfirst
      by_cases h : other = first
      · simp [set, h]
      · simp [set, List.lookup_cons, beq_false_of_ne h, h]
    · by_cases h : other = first
      · simp [set, hfirst, h]
      · simp [set, List.lookup_cons, hfirst, beq_false_of_ne h, ih]

/-- Setting a name adds it to the names. -/
theorem mem_names_set {name other : Text} {value : α} {entries : Entries α} :
    other ∈ (set name value entries).names ↔ other = name ∨ other ∈ entries.names := by
  induction entries with
  | nil => simp [set, names]
  | cons entry rest ih =>
    obtain ⟨first, old⟩ := entry
    by_cases hfirst : first = name
    · simp [set, names, hfirst]
    · simp only [names] at ih
      simp only [set, hfirst, ↓reduceIte, names, List.map_cons, List.mem_cons, ih]
      exact or_left_comm

/-- Setting a name keeps the names distinct. -/
theorem nodup_names_set {name : Text} {value : α} {entries : Entries α}
    (h : entries.names.Nodup) : (set name value entries).names.Nodup := by
  induction entries with
  | nil => simp [set, names]
  | cons entry rest ih =>
    obtain ⟨first, old⟩ := entry
    obtain ⟨hfirst, hrest⟩ := List.nodup_cons.mp h
    by_cases hname : first = name
    · subst hname
      simpa [set, names] using h
    · have hmem : first ∉ (set name value rest).names := by
        rw [mem_names_set]
        exact not_or.mpr ⟨hname, hfirst⟩
      simpa [set, names, hname] using List.nodup_cons.mpr ⟨hmem, ih hrest⟩

/-- Entries made from pairs have distinct names. -/
theorem nodup_names_ofPairs (pairs : List (Text × α)) : (ofPairs pairs).names.Nodup := by
  suffices h : ∀ entries : Entries α, entries.names.Nodup →
      (pairs.foldl (fun entries pair => entries.set pair.1 pair.2) entries).names.Nodup from
    h [] List.nodup_nil
  induction pairs with
  | nil => exact fun _ hentries => hentries
  | cons pair rest ih => exact fun entries hentries => ih _ (nodup_names_set hentries)

/-- Setting a new name puts it at the end. -/
theorem set_of_not_mem_names {name : Text} (value : α) {entries : Entries α}
    (h : name ∉ entries.names) : set name value entries = entries ++ [(name, value)] := by
  induction entries with
  | nil => rfl
  | cons entry rest ih =>
    have hfirst : entry.1 ≠ name := fun heq => h (heq ▸ List.mem_cons_self)
    have hrest : name ∉ names rest := fun hmem => h (List.mem_cons_of_mem _ hmem)
    rw [set, if_neg hfirst, ih hrest, List.cons_append]

/-- What is there after a name has been set was there before or has just been set. -/
theorem mem_of_mem_set {name : Text} {value : α} {entry : Text × α} {entries : Entries α}
    (h : entry ∈ set name value entries) : entry = (name, value) ∨ entry ∈ entries := by
  induction entries with
  | nil => exact .inl (List.mem_singleton.mp h)
  | cons first rest ih =>
    rw [set] at h
    split at h
    · exact (List.mem_cons.mp h).imp_right (List.mem_cons_of_mem _)
    · rcases List.mem_cons.mp h with rfl | h
      · exact .inr List.mem_cons_self
      · exact (ih h).imp_right (List.mem_cons_of_mem _)

/-- Pairs of distinct names are entries as they stand. -/
theorem ofPairs_of_nodup {pairs : List (Text × α)} (h : (names pairs).Nodup) :
    ofPairs pairs = pairs := by
  suffices hfold : ∀ entries : Entries α, (names (entries ++ pairs)).Nodup →
      pairs.foldl (fun entries pair => entries.set pair.1 pair.2) entries = entries ++ pairs from
    hfold [] h
  clear h
  induction pairs with
  | nil =>
    intro entries _
    exact (List.append_nil entries).symm
  | cons pair rest ih =>
    intro entries hentries
    have hnew : pair.1 ∉ entries.names := by
      rw [names, List.map_append, List.nodup_append] at hentries
      exact fun hmem => hentries.2.2 pair.1 hmem pair.1 List.mem_cons_self rfl
    rw [List.foldl_cons, set_of_not_mem_names pair.2 hnew, ih _ (by simpa using hentries)]
    simp

/-- Entries made from pairs are some of the pairs. -/
theorem mem_of_mem_ofPairs {pairs : List (Text × α)} {entry : Text × α}
    (h : entry ∈ ofPairs pairs) : entry ∈ pairs := by
  suffices hfold : ∀ entries : Entries α,
      entry ∈ pairs.foldl (fun entries pair => entries.set pair.1 pair.2) entries →
        entry ∈ entries ∨ entry ∈ pairs from
    (hfold [] h).resolve_left List.not_mem_nil
  clear h
  induction pairs with
  | nil => exact fun entries h => .inl h
  | cons pair rest ih =>
    intro entries h
    rcases ih _ h with h | h
    · rcases mem_of_mem_set h with rfl | h
      · exact .inr List.mem_cons_self
      · exact .inl h
    · exact .inr (List.mem_cons_of_mem _ h)

end Entries

end RecordRegistry
