import Mathlib.Data.List.Forall2
import Mathlib.Data.List.Induction
import RecordRegistry.Proofs.Entries
import RecordRegistry.Proofs.Text.Ascending
import RecordRegistry.Rows

/-!
# Rows of any table

A header may repeat a name, and a record may be shorter or longer than it. `Csv.Holds` says which
text a record has under a name: that of the last column of this name, if there is one. The rows of
every text that is read at all have these texts and nothing else.
-/

namespace RecordRegistry

/-- Whether a name stands in a column and in no later one. -/
def IsLastAt (names : List Text) (name : Text) (column : Nat) : Prop :=
  names[column]? = some name ∧ ∀ later, column < later → names[later]? ≠ some name

theorem getElem?_concat_eq_some_iff {α : Type} {items : List α} {last item : α} {place : Nat} :
    (items ++ [last])[place]? = some item ↔
      items[place]? = some item ∨ place = items.length ∧ last = item := by
  rcases lt_trichotomy place items.length with h | rfl | h
  · rw [List.getElem?_append_left h, or_iff_left fun hlast => h.ne hlast.1]
  · rw [List.getElem?_concat_length, List.getElem?_eq_none (Nat.le_refl _)]
    simp
  · have hlength : (items ++ [last]).length ≤ place := by
      rw [List.length_append]
      exact h
    rw [List.getElem?_eq_none hlength, List.getElem?_eq_none h.le]
    simp [h.ne']

namespace IsLastAt

variable {names : List Text} {name other : Text} {column : Nat}

theorem concat_self_iff : IsLastAt (names ++ [name]) name column ↔ column = names.length := by
  simp only [IsLastAt, getElem?_concat_eq_some_iff, and_true, ne_eq, not_or]
  constructor
  · rintro ⟨hname, hlater⟩
    by_contra hne
    obtain ⟨hlt, -⟩ := List.getElem?_eq_some_iff.mp (hname.resolve_right hne)
    exact (hlater names.length hlt).2 rfl
  · rintro rfl
    refine ⟨.inr rfl, fun later hlater => ⟨?_, hlater.ne'⟩⟩
    rw [List.getElem?_eq_none hlater.le]
    exact (Option.some_ne_none name).symm

theorem concat_of_ne_iff (h : other ≠ name) :
    IsLastAt (names ++ [other]) name column ↔ IsLastAt names name column := by
  simp [IsLastAt, getElem?_concat_eq_some_iff, h]

end IsLastAt

namespace Entries

variable {α : Type}

theorem ofPairs_concat (pairs : List (Text × α)) (pair : Text × α) :
    ofPairs (pairs ++ [pair]) = (ofPairs pairs).set pair.1 pair.2 := by
  rw [ofPairs, List.foldl_append]
  rfl

/-- Setting a name that is there keeps all names. -/
theorem names_set_of_mem {name : Text} (value : α) {entries : Entries α}
    (h : name ∈ entries.names) : (set name value entries).names = entries.names := by
  induction entries with
  | nil => cases h
  | cons entry rest ih =>
      by_cases hfirst : entry.1 = name
      · rw [set, if_pos hfirst, names, names, List.map_cons, List.map_cons, hfirst]
      · have hrest := ih ((List.mem_cons.mp h).resolve_left (Ne.symm hfirst))
        rw [set, if_neg hfirst, names, List.map_cons, ← names, hrest, names, names, List.map_cons]

/-- Names stand in the order in which they first come. -/
theorem names_ofPairs (pairs : List (Text × α)) :
    (ofPairs pairs).names = (names pairs).eraseDups := by
  induction pairs using List.reverseRecOn with
  | nil => rfl
  | append_singleton pairs pair ih =>
      have hnames : names (pairs ++ [pair]) = names pairs ++ [pair.1] := List.map_append
      rw [ofPairs_concat, hnames, List.eraseDups_append]
      by_cases hpair : pair.1 ∈ names pairs
      · have hmem : pair.1 ∈ (ofPairs pairs).names := by rwa [ih, List.mem_eraseDups]
        rw [names_set_of_mem pair.2 hmem, ih]
        simp [List.removeAll, hpair]
      · have hmem : pair.1 ∉ (ofPairs pairs).names := by rwa [ih, List.mem_eraseDups]
        rw [set_of_not_mem_names pair.2 hmem, names, List.map_append, ← names, ih]
        simp [List.removeAll, hpair, List.eraseDups_cons]

/-- The last of several pairs of one name counts. -/
theorem lookup_ofPairs_eq_some_iff {pairs : List (Text × α)} {name : Text} {value : α} :
    (ofPairs pairs).lookup name = some value ↔
      ∃ column, IsLastAt (names pairs) name column ∧ pairs[column]? = some (name, value) := by
  induction pairs using List.reverseRecOn with
  | nil => simp [ofPairs]
  | append_singleton pairs pair ih =>
      have hnames : names (pairs ++ [pair]) = names pairs ++ [pair.1] := List.map_append
      obtain ⟨last, old⟩ := pair
      rw [ofPairs_concat, lookup_set, hnames]
      simp only [getElem?_concat_eq_some_iff]
      by_cases hname : name = last
      · subst hname
        simp [IsLastAt.concat_self_iff, names]
      · simp [IsLastAt.concat_of_ne_iff (Ne.symm hname), hname, Ne.symm hname, ih]

end Entries

namespace Csv

/-- Whether a record has a text under a name: its cell in the last column of this name, unless the
record ends before this column or the cell is empty. -/
def Holds (header cells : List Text) (name cell : Text) : Prop :=
  cell ≠ "" ∧ ∃ column, IsLastAt header name column ∧ cells[column]? = some cell

/-- The cells of a record, and empty ones for those that it lacks. -/
theorem padded_getElem?_eq_some_iff {cells : List Text} {cell : Text} (h : cell ≠ "")
    (count column : Nat) :
    (cells ++ List.replicate count ("" : Text))[column]? = some cell ↔
      cells[column]? = some cell := by
  rcases Nat.lt_or_ge column cells.length with hlt | hge
  · rw [List.getElem?_append_left hlt]
  · rw [List.getElem?_append_right hge, List.getElem?_eq_none hge]
    simp [List.getElem?_replicate, Ne.symm h]

theorem names_zip_padded (header cells : List Text) :
    Entries.names
        (header.zip (cells ++ List.replicate (header.length - cells.length) ("" : Text))) =
      header := by
  apply List.map_fst_zip
  rw [List.length_append, List.length_replicate]
  omega

/-- A row has the names of its header, each in the place where it first comes. -/
theorem names_row_sublist (header cells : List Text) :
    (row header cells).names.Sublist header.eraseDups := by
  have hpairs := Entries.names_ofPairs
    (header.zip (cells ++ List.replicate (header.length - cells.length) ("" : Text)))
  rw [names_zip_padded] at hpairs
  rw [← hpairs]
  exact List.filter_sublist.map _

theorem nodup_names_row (header cells : List Text) : (row header cells).names.Nodup :=
  (Text.nodup_eraseDups header).sublist (names_row_sublist header cells)

/-- A row has the texts that its record has under the names of the header. -/
theorem mem_row_iff (header cells : List Text) (name cell : Text) :
    (name, cell) ∈ row header cells ↔ Holds header cells name cell := by
  have hpairs := Entries.nodup_names_ofPairs
    (header.zip (cells ++ List.replicate (header.length - cells.length) ("" : Text)))
  rw [row, List.mem_filter, decide_eq_true_eq, and_comm,
    ← Entries.lookup_eq_some_iff_mem hpairs, Entries.lookup_ofPairs_eq_some_iff, names_zip_padded]
  refine and_congr_right fun hcell => exists_congr fun column => and_congr_right fun hlast => ?_
  rw [List.getElem?_zip_eq_some, padded_getElem?_eq_some_iff hcell]
  exact and_iff_right hlast.1

end Csv

namespace Rows

/-- The row that a record makes under a header: names of the header in the order in which they first
come, each of them once, and under them the texts of the record, none of which is empty. -/
structure IsRow (header cells : List Text) (row : Json.Record) : Prop where
  distinct : row.names.Nodup
  ordered : row.names.Sublist header.eraseDups
  mem_iff : ∀ name value, (name, value) ∈ row ↔
    ∃ cell, value = .string cell ∧ Csv.Holds header cells name cell

namespace IsRow

variable {header cells : List Text} {row : Json.Record} {name : Text}

theorem lookup_of_holds (h : IsRow header cells row) {cell : Text}
    (hcell : Csv.Holds header cells name cell) : row.lookup name = some (.string cell) := by
  rw [Entries.lookup_eq_some_iff_mem h.distinct, h.mem_iff]
  exact ⟨cell, rfl, hcell⟩

theorem lookup_eq_none (h : IsRow header cells row)
    (hcells : ∀ cell, ¬ Csv.Holds header cells name cell) : row.lookup name = none := by
  rw [Entries.lookup_eq_none_iff_not_mem_names]
  intro hname
  obtain ⟨member, hmember, rfl⟩ := List.mem_map.mp hname
  obtain ⟨cell, -, hcell⟩ := (h.mem_iff _ _).mp hmember
  exact hcells cell hcell

end IsRow

theorem isRow_row (header cells : List Text) :
    IsRow header cells ((Csv.row header cells).map fun entry => (entry.1, .string entry.2)) := by
  have hnames : Entries.names ((Csv.row header cells).map fun entry =>
      (entry.1, Json.Value.string entry.2)) = (Csv.row header cells).names := by
    rw [Entries.names, List.map_map]
    rfl
  refine ⟨hnames ▸ Csv.nodup_names_row header cells,
    hnames ▸ Csv.names_row_sublist header cells, ?_⟩
  intro name value
  rw [List.mem_map]
  constructor
  · rintro ⟨⟨other, cell⟩, hentry, heq⟩
    cases heq
    exact ⟨cell, rfl, (Csv.mem_row_iff header cells _ cell).mp hentry⟩
  · rintro ⟨cell, rfl, hcell⟩
    exact ⟨(name, cell), (Csv.mem_row_iff header cells name cell).mpr hcell, rfl⟩

/-- The first record of a text is the header, and all later ones that are not blank make the
rows. -/
theorem forall₂_isRow_of_ofCsv {text : List CodePoint} {rows : List Json.Record}
    (h : ofCsv text = .ok rows) :
    ∃ records, Csv.records text = .ok records ∧
      List.Forall₂ (IsRow (records.headD [])) (records.tail.filter (· ≠ [])) rows := by
  rw [ofCsv, Csv.read] at h
  cases hrecords : Csv.records text with
  | error e =>
      rw [hrecords] at h
      cases h
  | ok records =>
      rw [hrecords] at h
      cases h
      refine ⟨records, rfl, ?_⟩
      cases records with
      | nil => exact .nil
      | cons header rest =>
          rw [Csv.rows, List.map_map, List.forall₂_map_right_iff, List.tail_cons, List.forall₂_same]
          exact fun cells _ => isRow_row header cells

end Rows

end RecordRegistry
