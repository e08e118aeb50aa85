import RecordRegistry.Proofs.Report.Same
import RecordRegistry.Rows

/-!
# Rows in canonical text

Rows are given back by the canonical text of their array, by that of an object which has the array
under the name `rows`, and a row alone by its own, unless it has an array under that name. They come
back up to the order of names, which validation does not see.
-/

namespace RecordRegistry

open Json (Value Record)

namespace Json

/-- A record in the order of its names, at every depth. -/
def Record.sorted (record : Record) : Record :=
  (Value.sortedMembers record).mergeSort fun a b => a.1 ≤ b.1

theorem Value.sorted_object (record : Record) : (object record).sorted = object record.sorted := rfl

theorem Value.sorted_array_objects (rows : List Record) :
    (array (rows.map object)).sorted = array ((rows.map Record.sorted).map object) := by
  rw [sorted, sortedItems_map, List.map_map, List.map_map]
  rfl

/-- Sorting makes an array of an array only. -/
theorem Value.sorted_ne_array {v : Value} (h : ∀ items, v ≠ array items) (items : List Value) :
    v.sorted ≠ array items := by
  cases v with
  | array others => exact absurd rfl (h others)
  | _ => exact Value.noConfusion

theorem Record.lookup_sorted {record : Record} (hnames : record.names.Nodup) (name : Text) :
    record.sorted.lookup name = (record.lookup name).map Value.sorted := by
  obtain ⟨others, hothers, hlookup⟩ := Value.exists_sorted_object record hnames
  rw [Value.sorted_object] at hothers
  rw [Value.object.inj hothers, hlookup]

end Json

namespace Rows

theorem ofItems_objects (index : Nat) (rows : List Record) :
    ofItems index (rows.map .object) = .ok rows := by
  induction rows generalizing index with
  | nil => rfl
  | cons row rows ih =>
      rw [List.map_cons, ofItems, ih (index + 1)]
      rfl

theorem ofValue_array_objects (rows : List Record) :
    ofValue (.array (rows.map .object)) = .ok rows :=
  ofItems_objects 0 rows

theorem ofValue_of_lookup {members : Record} {items : List Value}
    (h : members.lookup ("rows" : Text) = some (.array items)) :
    ofValue (.object members) = ofItems 0 items := by
  rw [ofValue, h]

theorem ofValue_of_no_rows {members : Record}
    (h : ∀ items, members.lookup ("rows" : Text) ≠ some (.array items)) :
    ofValue (.object members) = .ok [members] := by
  rw [ofValue]
  cases hlookup : members.lookup ("rows" : Text) with
  | none => rfl
  | some value =>
      cases value with
      | array items => exact absurd hlookup (h items)
      | _ => rfl

/-- What is read of a canonical text is what the value has in the order of its names. -/
theorem ofJson_canonical {v : Value} (h : v.Legible) :
    ofJson v.canonical.toList = ofValue v.sorted := by
  rw [ofJson, Json.read_canonical h]

/-- A text that gives rows back: up to the order of names, and with the same report and log under
every schema in every mode. Numbers that are the same are one number (`Value.same_real_iff`). -/
def GivesBack (text : List CodePoint) (rows : List Record) : Prop :=
  ∃ back, ofJson text = .ok back ∧
    List.Forall₂ (fun row old => Value.Same (.object row) (.object old)) back rows ∧
    ∀ (schema : Schema) (mode : Text),
      schema.validateRows mode (back.map .object) = schema.validateRows mode (rows.map .object)

/-- Rows that are read in the order of their names are given back. -/
theorem givesBack_of_sorted {text : List CodePoint} {rows : List Record}
    (hrows : ∀ row ∈ rows, (Value.object row).Distinct)
    (h : ofJson text = .ok (rows.map Json.Record.sorted)) : GivesBack text rows := by
  have hsame : List.Forall₂ (fun row old => Value.Same (.object row) (.object old))
      (rows.map Json.Record.sorted) rows := by
    rw [List.forall₂_map_left_iff, List.forall₂_same]
    exact fun row _ => Value.same_sorted (.object row)
  refine ⟨_, h, hsame, ?_⟩
  intro schema mode
  apply schema.validateRows_of_same mode (List.forall_mem_map.mpr hrows)
  rw [List.forall₂_map_left_iff, List.forall₂_map_right_iff]
  exact hsame

/--
Rows of JSON survive being written and read.  The canonical text of their array gives them back, and
so does that of an object with any further members which has this array under the name `rows`.  An
object without an array under this name is given back as the only row of its own text.
-/
theorem givesBack_canonical (rows : List Record)
    (hdistinct : ∀ row ∈ rows, (Value.object row).Distinct)
    (hshort : ∀ row ∈ rows, (Value.object row).Short) :
    GivesBack (Value.array (rows.map .object)).canonical.toList rows ∧
    (∀ extra : Record, (Value.object extra).Distinct → (Value.object extra).Short →
      GivesBack (Value.object
        (extra.set "rows" (.array (rows.map .object)))).canonical.toList rows) ∧
    ∀ members : Record, (Value.object members).Distinct → (Value.object members).Short →
      (∀ items, members.lookup ("rows" : Text) ≠ some (.array items)) →
        GivesBack (Value.object members).canonical.toList [members] := by
  have hlegible : (Value.array (rows.map .object)).Legible :=
    .array (List.forall_mem_map.mpr fun row hrow =>
      (hshort row hrow).legible (hdistinct row hrow))
  refine ⟨?_, ?_, ?_⟩
  · apply givesBack_of_sorted hdistinct
    rw [ofJson_canonical hlegible, Value.sorted_array_objects, ofValue_array_objects]
  · intro extra hextra hshort'
    have hnames : (extra.set "rows" (.array (rows.map .object))).names.Nodup :=
      Entries.nodup_names_set (Value.distinct_object_iff.mp hextra).1
    have hobject : (Value.object (extra.set "rows" (.array (rows.map .object)))).Legible := by
      cases hshort'.legible hextra with
      | object _ hmembers =>
          apply Value.Legible.object hnames
          intro member hmember
          rcases Entries.mem_of_mem_set hmember with rfl | hmember
          · exact hlegible
          · exact hmembers member hmember
    have hlookup := Json.Record.lookup_sorted hnames "rows"
    rw [Entries.lookup_set, if_pos rfl, Option.map_some, Value.sorted_array_objects] at hlookup
    apply givesBack_of_sorted hdistinct
    rw [ofJson_canonical hobject, Value.sorted_object, ofValue_of_lookup hlookup, ofItems_objects]
  · intro members hmembers hshort' hrows
    apply givesBack_of_sorted (List.forall_mem_singleton.mpr hmembers)
    rw [ofJson_canonical (hshort'.legible hmembers), Value.sorted_object]
    apply ofValue_of_no_rows
    intro items hlookup
    rw [Json.Record.lookup_sorted (Value.distinct_object_iff.mp hmembers).1,
      Option.map_eq_some_iff] at hlookup
    obtain ⟨value, hvalue, hsorted⟩ := hlookup
    exact Value.sorted_ne_array (fun others heq => hrows others (heq ▸ hvalue)) items hsorted

namespace CanonicalRowsWitness

/-- A row with its names out of order. -/
def unordered : Record := [("b", .int 1), ("a", .array [])]

theorem unordered_given_back :
    GivesBack (Value.array [.object unordered]).canonical.toList [unordered] ∧
    GivesBack (Value.object [("total", .null),
      ("rows", .array [.object unordered])]).canonical.toList [unordered] ∧
    GivesBack (Value.object unordered).canonical.toList [unordered] := by
  have hdistinct : (Value.object unordered).Distinct := by
    apply Value.distinct_object_iff.mpr
    exact ⟨by decide, by simp [unordered, Value.Distinct.int, Value.distinct_array_iff]⟩
  have hshort : (Value.object unordered).Short := by
    refine .object (List.forall_mem_cons.mpr ⟨.int (by decide), ?_⟩)
    exact List.forall_mem_singleton.mpr (.array (by simp))
  have hgiven := givesBack_canonical [unordered] (List.forall_mem_singleton.mpr hdistinct)
    (List.forall_mem_singleton.mpr hshort)
  refine ⟨hgiven.1, hgiven.2.1 [("total", .null)] ?_ ?_, ?_⟩
  · exact Value.distinct_object_iff.mpr ⟨by decide, by simp [Value.Distinct.null]⟩
  · exact .object (by simp [Value.Short.null])
  · have hrows : unordered.lookup ("rows" : Text) = none := rfl
    apply hgiven.2.2 unordered hdistinct hshort
    intro items
    rw [hrows]
    exact (Option.some_ne_none _).symm

end CanonicalRowsWitness

end Rows

end RecordRegistry
