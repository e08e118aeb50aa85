import Mathlib.Data.List.Nodup
import Mathlib.Data.List.Sort
import RecordRegistry.Entries

/-!
# Entries in the order of their names

Entries of distinct names have one order in which the names ascend. Putting them in that order
therefore keeps all there is to know about them but their old order.
-/

namespace RecordRegistry.Entries

variable {α : Type}

theorem pairwise_le_mergeSort (entries : Entries α) :
    (entries.mergeSort fun a b => a.1 ≤ b.1).Pairwise fun a b => a.1 ≤ b.1 := by
  have htrans : ∀ a b c : Text × α, decide (a.1 ≤ b.1) → decide (b.1 ≤ c.1) →
      decide (a.1 ≤ c.1) := by
    simp only [decide_eq_true_eq]
    exact fun a b c => Text.le_trans
  have htotal : ∀ a b : Text × α, decide (a.1 ≤ b.1) || decide (b.1 ≤ a.1) := by
    simpa using fun a _ b _ => Text.le_total a b
  simpa using List.pairwise_mergeSort htrans htotal entries

/-- Entries in ascending order of distinct names are in strictly ascending order. -/
theorem pairwise_lt_names_mergeSort {entries : Entries α} (hnames : entries.names.Nodup) :
    (names (entries.mergeSort fun a b => a.1 ≤ b.1)).Pairwise (· < ·) := by
  have hsorted := pairwise_le_mergeSort entries
  have hnodup : (names (entries.mergeSort fun a b => a.1 ≤ b.1)).Nodup :=
    ((List.mergeSort_perm entries _).map _).nodup_iff.mpr hnames
  rw [names, List.pairwise_map]
  rw [names, List.Nodup, List.pairwise_map] at hnodup
  exact hsorted.imp₂ (fun _ _ hle hne => Text.lt_of_le_of_ne hle hne) hnodup

/-- Entries of distinct names are the same in the order of names exactly when they are the same in
some order. -/
theorem mergeSort_eq_mergeSort_iff {entries others : Entries α} (hnames : entries.names.Nodup) :
    (entries.mergeSort fun a b => a.1 ≤ b.1) = (others.mergeSort fun a b => a.1 ≤ b.1) ↔
      entries.Perm others := by
  have hentries := List.mergeSort_perm entries fun a b => a.1 ≤ b.1
  have hothers := List.mergeSort_perm others fun a b => a.1 ≤ b.1
  constructor
  · intro h
    exact hentries.symm.trans (h ▸ hothers)
  · intro h
    apply List.Perm.eq_of_pairwise _ (pairwise_le_mergeSort entries)
      (pairwise_le_mergeSort others) ((hentries.trans h).trans hothers.symm)
    intro a b ha hb hab hba
    have ha' : a ∈ entries := hentries.mem_iff.mp ha
    have hb' : b ∈ entries := h.mem_iff.mpr (hothers.mem_iff.mp hb)
    exact List.inj_on_of_nodup_map hnames ha' hb' (Text.le_antisymm hab hba)

/-- The order of distinct names has no effect on what is looked up. -/
theorem lookup_of_perm {entries others : Entries α} (hnames : entries.names.Nodup)
    (h : entries.Perm others) (name : Text) : entries.lookup name = others.lookup name := by
  have hothers : others.names.Nodup := (h.map _).nodup_iff.mp hnames
  apply Option.ext
  intro value
  rw [lookup_eq_some_iff_mem hnames, lookup_eq_some_iff_mem hothers, h.mem_iff]

theorem lookup_mergeSort {entries : Entries α} (hnames : entries.names.Nodup) (name : Text) :
    (entries.mergeSort fun a b => a.1 ≤ b.1).lookup name = entries.lookup name :=
  (lookup_of_perm hnames (List.mergeSort_perm entries _).symm name).symm

/-- Leaving out other names has no effect on what is looked up. -/
theorem lookup_filter (keep : Text → Bool) {name : Text} (h : keep name = true)
    (entries : Entries α) :
    List.lookup name (entries.filter fun entry => keep entry.1) = entries.lookup name := by
  induction entries with
  | nil => rfl
  | cons entry rest ih =>
      by_cases hname : name = entry.1
      · rw [List.filter_cons_of_pos (hname ▸ h), List.lookup_cons, List.lookup_cons, hname]
        simp
      · rw [List.lookup_cons, beq_false_of_ne hname, ← ih, List.filter_cons]
        split
        · rw [List.lookup_cons, beq_false_of_ne hname]
        · rfl

/-- Changing every value changes what is looked up. -/
theorem lookup_map_snd {β : Type} (f : α → β) (entries : Entries α) (name : Text) :
    List.lookup name (entries.map fun entry => (entry.1, f entry.2)) =
      (entries.lookup name).map f := by
  induction entries with
  | nil => rfl
  | cons entry rest ih =>
      rw [List.map_cons, List.lookup_cons, List.lookup_cons, ih]
      cases name == entry.1 <;> rfl

/-- Entries are a pair in some order when they have both of its values and no third name. -/
theorem perm_pair_iff {entries : Entries α} (hnames : entries.names.Nodup) {name name' : Text}
    (hne : name ≠ name') {a b : α} :
    entries.Perm [(name, a), (name', b)] ↔
      entries.lookup name = some a ∧ entries.lookup name' = some b ∧
        ∀ other ∈ entries.names, other ∈ [name, name'] := by
  rw [lookup_eq_some_iff_mem hnames, lookup_eq_some_iff_mem hnames]
  constructor
  · intro h
    refine ⟨h.mem_iff.mpr (by simp), h.mem_iff.mpr (by simp), ?_⟩
    intro other hother
    exact (h.map Prod.fst).mem_iff.mp hother
  · rintro ⟨ha, hb, hothers⟩
    have hpair : names [(name, a), (name', b)] |>.Nodup := by simp [names, hne]
    rw [List.perm_ext_iff_of_nodup (.of_map _ hnames) (.of_map _ hpair)]
    intro entry
    constructor
    · intro hentry
      have hname := hothers entry.1 (List.mem_map_of_mem hentry)
      rcases List.mem_pair.mp hname with hname | hname
      · rw [List.inj_on_of_nodup_map hnames hentry ha hname]
        simp
      · rw [List.inj_on_of_nodup_map hnames hentry hb hname]
        simp
    · intro hentry
      rcases List.mem_pair.mp hentry with rfl | rfl
      · exact ha
      · exact hb

end RecordRegistry.Entries
