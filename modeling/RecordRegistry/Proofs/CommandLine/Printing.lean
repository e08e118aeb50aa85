import RecordRegistry.CommandLine.Run
import RecordRegistry.Proofs.Text.Surrogates

/-!
# What is printed

Lines are printed as long as they have bytes, so that all of them are printed exactly when none
holds a surrogate. A run that cannot print a line ends with code 2, whatever it would have done
next.
-/

namespace RecordRegistry.CommandLine

variable {lines : List Text}

namespace Printing

theorem fault_ofLines_eq_none_iff :
    (ofLines lines).fault = none ↔ ∀ line ∈ lines, line.SurrogateFree := by
  induction lines with
  | nil => simp [ofLines]
  | cons line rest ih =>
      rw [List.forall_mem_cons, ← Text.exists_utf8_iff, ← ih, ofLines]
      cases line.utf8 <;> simp

theorem lines_ofLines_of_fault_eq_none (h : (ofLines lines).fault = none) :
    (ofLines lines).lines = lines := by
  induction lines with
  | nil => rfl
  | cons line rest ih =>
      rw [ofLines] at h ⊢
      cases hbytes : line.utf8 with
      | error e =>
          rw [hbytes] at h
          cases h
      | ok bytes =>
          rw [hbytes] at h
          exact congrArg (line :: ·) (ih h)

end Printing

namespace RunResult

theorem printing_of_surrogateFree (h : ∀ line ∈ lines, line.SurrogateFree) (result : RunResult) :
    printing lines result = result.after lines [] := by
  have hfault := Printing.fault_ofLines_eq_none_iff.mpr h
  simp only [printing, hfault, Printing.lines_ofLines_of_fault_eq_none hfault]

theorem ending_printing_of_not_surrogateFree (h : ¬ ∀ line ∈ lines, line.SurrogateFree)
    (result : RunResult) : (printing lines result).ending = .exit 2 := by
  rw [← Printing.fault_ofLines_eq_none_iff, ← Ne, Option.ne_none_iff_exists'] at h
  obtain ⟨e, he⟩ := h
  simp only [printing, he]
  rfl

/-- Printing does not keep a run from ending with a code. -/
theorem exists_exit_printing (lines : List Text) {result : RunResult} {code : Nat}
    (h : result.ending = .exit code) : ∃ code, (printing lines result).ending = .exit code := by
  by_cases hlines : ∀ line ∈ lines, line.SurrogateFree
  · rw [printing_of_surrogateFree hlines]
    exact ⟨code, h⟩
  · exact ⟨2, ending_printing_of_not_surrogateFree hlines result⟩

end RunResult

end RecordRegistry.CommandLine
