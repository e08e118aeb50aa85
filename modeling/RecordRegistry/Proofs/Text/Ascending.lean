import Mathlib.Data.List.Sort
import RecordRegistry.Text

/-!
# Texts in ascending order

Texts of which none comes twice stand in strictly ascending order once they are sorted.
-/

namespace RecordRegistry.Text

/-- No text is left twice. -/
theorem nodup_eraseDups (texts : List Text) : texts.eraseDups.Nodup := by
  match texts with
  | [] => exact List.nodup_nil
  | text :: rest =>
      rw [List.eraseDups_cons, List.nodup_cons, List.mem_eraseDups]
      refine ⟨by simp, nodup_eraseDups _⟩
termination_by texts.length
decreasing_by exact Nat.lt_succ_of_le (List.length_filter_le _ _)

theorem pairwise_lt_mergeSort {texts : List Text} (h : texts.Nodup) :
    (texts.mergeSort fun a b => a ≤ b).Pairwise (· < ·) := by
  have htrans : ∀ a b c : Text, decide (a ≤ b) → decide (b ≤ c) → decide (a ≤ c) := by
    simp only [decide_eq_true_eq]
    exact fun a b c => le_trans
  have htotal : ∀ a b : Text, decide (a ≤ b) || decide (b ≤ a) := by
    simpa using fun a b : Text => le_total a b
  have hsorted := List.pairwise_mergeSort htrans htotal texts
  have hnodup := (List.mergeSort_perm texts fun a b => a ≤ b).nodup_iff.mpr h
  exact hsorted.imp₂ (fun _ _ hle hne => lt_of_le_of_ne (of_decide_eq_true hle) hne) hnodup

end RecordRegistry.Text
