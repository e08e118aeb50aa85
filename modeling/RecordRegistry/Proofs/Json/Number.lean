import RecordRegistry.Json.Printer

/-!
# Written numbers

Numbers are written without the characters that end a value. A whole number is known by its text, and
the text of a double-precision number is never that of a whole one.
-/

namespace RecordRegistry

/-- The characters of whole numbers. -/
def isWholeMark (c : Char) : Bool := c.isDigit || c = '-'

/-- The characters of finite numbers. -/
def isNumberMark (c : Char) : Bool := isWholeMark c || c = '.' || c = 'e' || c = '+'

theorem isWholeMark_of_isDigit {c : Char} (h : c.isDigit = true) : isWholeMark c = true := by
  simp [isWholeMark, h]

theorem isNumberMark_of_isWholeMark {c : Char} (h : isWholeMark c = true) :
    isNumberMark c = true := by
  simp [isNumberMark, h]

theorem isNumberMark_of_isDigit {c : Char} (h : c.isDigit = true) : isNumberMark c = true :=
  isNumberMark_of_isWholeMark (isWholeMark_of_isDigit h)

theorem isDigit_of_mem_toDigits {c : Char} {n : Nat} (h : c ∈ Nat.toDigits 10 n) :
    c.isDigit = true :=
  Nat.isDigit_of_mem_toDigits (by decide) (by decide) h

namespace Layout

theorem mem_of_mem_dropTrailingZeros {c : Char} {digits : List Char}
    (h : c ∈ dropTrailingZeros digits) : c ∈ digits := by
  rw [dropTrailingZeros, List.mem_reverse] at h
  exact List.mem_reverse.mp ((List.dropWhile_sublist _).subset h)

/-- A number in full has a point. -/
theorem point_mem_positional (digits : List Char) (point : Int) :
    '.' ∈ positional digits point := by
  rw [positional]
  split
  · simp
  · split <;> simp

theorem isNumberMark_of_mem_positional {digits : List Char}
    (hdigits : ∀ c ∈ digits, c.isDigit = true) (point : Int) :
    ∀ c ∈ positional digits point, isNumberMark c = true := by
  have hall : ∀ c ∈ digits, isNumberMark c = true := by
    intro c hc
    exact isNumberMark_of_isDigit (hdigits c hc)
  have hzeros (count : Nat) : ∀ c ∈ List.replicate count '0', isNumberMark c = true := by
    intro c hc
    rw [List.eq_of_mem_replicate hc]
    decide
  intro c hc
  rw [positional] at hc
  split at hc
  · simp only [List.cons_append, List.mem_cons, List.mem_append] at hc
    rcases hc with rfl | rfl | hc | hc
    · decide
    · decide
    · exact hzeros _ c hc
    · exact hall c hc
  · split at hc
    · simp only [List.mem_append, List.mem_cons] at hc
      rcases hc with hc | rfl | hc
      · exact hall c (List.mem_of_mem_take hc)
      · decide
      · exact hall c (List.mem_of_mem_drop hc)
    · simp only [List.mem_append, List.mem_cons, List.not_mem_nil, or_false] at hc
      rcases hc with (hc | hc) | rfl | rfl
      · exact hall c hc
      · exact hzeros _ c hc
      · decide
      · decide

/-- A number with a power of ten has its mark. -/
theorem power_mem_scientific (layout : Layout) (digits : List Char) (point : Int) :
    'e' ∈ layout.scientific digits point := by
  simp [scientific]

theorem isNumberMark_of_mem_scientific (layout : Layout) {digits : List Char}
    (hdigits : ∀ c ∈ digits, c.isDigit = true) (point : Int) :
    ∀ c ∈ layout.scientific digits point, isNumberMark c = true := by
  intro c hc
  simp only [scientific, List.mem_append, List.mem_cons, List.leftpad] at hc
  rcases hc with hc | rfl | rfl | hc | hc
  · split at hc
    · next first second rest =>
      rw [List.mem_cons, List.mem_cons] at hc
      rcases hc with rfl | rfl | hc
      · exact isNumberMark_of_isDigit (hdigits c List.mem_cons_self)
      · decide
      · exact isNumberMark_of_isDigit (hdigits c (List.mem_cons_of_mem _ hc))
    · exact isNumberMark_of_isDigit (hdigits c hc)
  · decide
  · split <;> decide
  · rw [List.eq_of_mem_replicate hc]
    decide
  · exact isNumberMark_of_isDigit (isDigit_of_mem_toDigits hc)

theorem isNumberMark_of_mem_magnitude (layout : Layout) (rank : Nat) :
    ∀ c ∈ layout.magnitude rank, isNumberMark c = true := by
  have hdigits (n : Nat) : ∀ c ∈ dropTrailingZeros (Nat.toDigits 10 n), c.isDigit = true := by
    intro c hc
    exact isDigit_of_mem_toDigits (mem_of_mem_dropTrailingZeros hc)
  rw [magnitude]
  split
  · exact List.all_eq_true.mp (by decide)
  · dsimp only
    split
    · exact isNumberMark_of_mem_positional (hdigits _) _
    · exact isNumberMark_of_mem_scientific layout (hdigits _) _

/-- A finite number has a point or a power of ten. -/
theorem exists_mem_magnitude (layout : Layout) (rank : Nat) :
    ∃ c ∈ layout.magnitude rank, isWholeMark c = false := by
  rw [magnitude]
  split
  · exact ⟨'.', by simp, by decide⟩
  · dsimp only
    split
    · exact ⟨'.', point_mem_positional _ _, by decide⟩
    · exact ⟨'e', power_mem_scientific layout _ _, by decide⟩

end Layout

namespace Json

theorem isWholeMark_of_mem_intText {c : Char} {n : Int} (h : c ∈ intText n) :
    isWholeMark c = true := by
  rw [intText, List.mem_append] at h
  rcases h with h | h
  · split at h
    · rw [List.mem_singleton.mp h]
      decide
    · cases h
  · exact isWholeMark_of_isDigit (isDigit_of_mem_toDigits h)

theorem intText_ne_nil (n : Int) : intText n ≠ [] := by
  simp [intText]

/-- A whole number is known by its text. -/
theorem intText_inj {n m : Int} (h : intText n = intText m) : n = m := by
  have hdigit (k : Nat) (rest : List Char) : Nat.toDigits 10 k ≠ '-' :: rest := by
    intro hk
    have hminus : '-' ∈ Nat.toDigits 10 k := by simp [hk]
    exact absurd (isDigit_of_mem_toDigits hminus) (by decide)
  have habs {k l : Nat} (hk : Nat.toDigits 10 k = Nat.toDigits 10 l) : k = l := by
    rw [← Nat.ofDigitChars_ten_toDigits (n := k), hk, Nat.ofDigitChars_ten_toDigits]
  rw [intText, intText] at h
  split at h
  · split at h
    · have hnm := habs (List.cons.inj h).2
      omega
    · exact absurd h.symm (hdigit _ _)
  · split at h
    · exact absurd h (hdigit _ _)
    · have hnm := habs h
      omega

/-- Something in the text of a double-precision number tells that it is no whole one. -/
theorem exists_mem_text (x : Double) : ∃ c ∈ x.text layout, isWholeMark c = false := by
  cases x with
  | finite negative rank =>
      rcases layout.exists_mem_magnitude rank with ⟨c, hc, hmark⟩
      exact ⟨c, List.mem_append_right _ hc, hmark⟩
  | infinity negative =>
      refine ⟨'I', List.mem_append_right _ ?_, by decide⟩
      decide
  | nan => exact ⟨'N', by decide, by decide⟩

theorem intText_ne_text (n : Int) (x : Double) : intText n ≠ x.text layout := by
  intro h
  rcases exists_mem_text x with ⟨c, hc, hmark⟩
  rw [← h] at hc
  rw [isWholeMark_of_mem_intText hc] at hmark
  cases hmark

end Json

end RecordRegistry
