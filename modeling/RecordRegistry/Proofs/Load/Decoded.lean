import RecordRegistry.Proofs.Json.Document
import RecordRegistry.Rows

/-!
# Rows of JSON

Rows that are read from JSON are legible, like all that is read.
-/

namespace RecordRegistry.Rows

/-- A row that some JSON text holds. -/
def Decoded (row : Json.Record) : Prop :=
  ∃ text rows, ofJson text = .ok rows ∧ row ∈ rows

theorem mem_items_of_mem_ofItems {index : Nat} {items : List Json.Value} {rows : List Json.Record}
    (h : ofItems index items = .ok rows) {row : Json.Record} (hrow : row ∈ rows) :
    .object row ∈ items := by
  induction items generalizing index rows with
  | nil =>
      cases h
      cases hrow
  | cons item items ih =>
      cases item with
      | object members =>
          rw [ofItems] at h
          cases hitems : ofItems (index + 1) items with
          | error e =>
              rw [hitems] at h
              cases h
          | ok others =>
              rw [hitems] at h
              cases h
              rcases List.mem_cons.mp hrow with rfl | hrow
              · exact List.mem_cons_self
              · exact List.mem_cons_of_mem _ (ih hitems hrow)
      | _ => cases h

theorem legible_of_mem_ofItems {index : Nat} {items : List Json.Value} {rows : List Json.Record}
    (hitems : (Json.Value.array items).Legible) (h : ofItems index items = .ok rows)
    {row : Json.Record} (hrow : row ∈ rows) : (Json.Value.object row).Legible := by
  cases hitems with
  | array hitems => exact hitems _ (mem_items_of_mem_ofItems h hrow)

theorem legible_of_mem_ofValue {v : Json.Value} {rows : List Json.Record} (hv : v.Legible)
    (h : ofValue v = .ok rows) {row : Json.Record} (hrow : row ∈ rows) :
    (Json.Value.object row).Legible := by
  unfold ofValue at h
  split at h
  · exact legible_of_mem_ofItems hv h hrow
  · next members =>
    split at h
    · next items hlookup =>
      cases hv with
      | object hnames hmembers =>
          rw [Entries.lookup_eq_some_iff_mem hnames] at hlookup
          exact legible_of_mem_ofItems (hmembers _ hlookup) h hrow
    · cases h
      rw [List.mem_singleton.mp hrow]
      exact hv
  · cases h

theorem Decoded.legible {row : Json.Record} (h : Decoded row) :
    (Json.Value.object row).Legible := by
  obtain ⟨text, rows, hrows, hrow⟩ := h
  rw [ofJson] at hrows
  split at hrows
  · cases hrows
  · next v hread => exact legible_of_mem_ofValue (Json.legible_of_read hread) hrows hrow

end RecordRegistry.Rows
