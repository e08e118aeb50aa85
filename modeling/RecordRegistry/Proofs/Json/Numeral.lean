import Mathlib.Algebra.Group.Nat.Defs
import RecordRegistry.Json.Reader
import RecordRegistry.Number.Shortest
import RecordRegistry.Proofs.Json.Line

/-!
# Numerals

A number with a fraction or with a power of ten is read part by part. What is read of it is the
double-precision number nearest to the decimal that the parts make up.
-/

namespace RecordRegistry.Json

/-- A text that does not go on with a digit. -/
def Undigited (text : List CodePoint) : Prop := ∀ c ∈ text.head?, c.isDigit = false

theorem undigited_cons {c : CodePoint} (h : c.isDigit = false) (text : List CodePoint) :
    Undigited (c :: text) := by
  simpa [Undigited] using h

theorem isDigit_of_isEnd {c : CodePoint} (h : isEnd c = true) : c.isDigit = false := by
  simp only [isEnd, Bool.or_eq_true, decide_eq_true_eq] at h
  rcases h with (rfl | rfl) | rfl <;> rfl

theorem Ended.undigited {text : List CodePoint} (h : Ended text) : Undigited text :=
  fun c hc => isDigit_of_isEnd (h c hc)

variable {digits : List Char} {rest : List CodePoint}

theorem takeWhile_isDigit_append (hdigits : ∀ c ∈ digits, c.isDigit = true)
    (hrest : Undigited rest) :
    (digits.map CodePoint.char ++ rest).takeWhile CodePoint.isDigit = digits.map .char := by
  have hall : ∀ c ∈ digits.map CodePoint.char, c.isDigit = true := List.forall_mem_map.mpr hdigits
  rw [List.takeWhile_append_of_pos hall]
  cases rest with
  | nil => simp
  | cons c rest => simp [hrest c rfl]

/-- The whole part of a number ends where no digit follows. -/
theorem wholeDigits_append (hne : digits ≠ []) (hdigits : ∀ c ∈ digits, c.isDigit = true)
    (hzero : digits.head? = some '0' → digits = ['0']) (hrest : Undigited rest) :
    wholeDigits (digits.map .char ++ rest) = digits.map .char := by
  unfold wholeDigits
  split
  · next tail heq =>
    obtain ⟨c, others, rfl⟩ := List.exists_cons_of_ne_nil hne
    rw [List.map_cons, List.cons_append, List.cons.injEq] at heq
    rw [hzero (congrArg some (CodePoint.char.inj heq.1))]
    rfl
  · exact takeWhile_isDigit_append hdigits hrest

theorem isDigit_of_mem_wholeDigits {c : CodePoint} {s : List CodePoint} (h : c ∈ wholeDigits s) :
    c.isDigit = true := by
  unfold wholeDigits at h
  split at h
  · rw [List.mem_singleton.mp h]
    rfl
  · exact List.all_eq_true.mp List.all_takeWhile c h

/-- Digits make up a number of no more digits. -/
theorem ofDigitChars_lt (hdigits : ∀ c ∈ digits, c.isDigit = true) :
    Nat.ofDigitChars 10 digits 0 < 10 ^ digits.length := by
  induction digits with
  | nil => decide
  | cons c digits ih =>
      rw [List.forall_mem_cons] at hdigits
      have hrest := ih hdigits.2
      have hc : c.toNat - '0'.toNat ≤ 9 := by
        have hdigit := hdigits.1
        simp only [Char.isDigit, Bool.and_eq_true, decide_eq_true_eq, ge_iff_le,
          UInt32.le_iff_toNat_le] at hdigit
        have hnine : c.toNat ≤ 57 := hdigit.2
        exact Nat.sub_le_sub_right hnine 48
      have hlead := Nat.mul_le_mul_left (10 ^ digits.length) hc
      rw [Nat.ofDigitChars_cons, Nat.mul_zero, Nat.zero_add, Nat.ofDigitChars_eq_ofDigitChars_zero,
        List.length_cons, Nat.pow_succ]
      omega

/-- Digits are characters. -/
theorem exists_eq_map_char {points : List CodePoint} (h : ∀ c ∈ points, c.isDigit = true) :
    ∃ digits : List Char, points = digits.map .char ∧ ∀ c ∈ digits, c.isDigit = true := by
  induction points with
  | nil => exact ⟨[], rfl, nofun⟩
  | cons point points ih =>
      rw [List.forall_mem_cons] at h
      obtain ⟨digits, rfl, hdigits⟩ := ih h.2
      cases point with
      | char c => exact ⟨c :: digits, rfl, List.forall_mem_cons.mpr ⟨h.1, hdigits⟩⟩
      | surrogate s => cases h.1

theorem digitsValue_lt {points : List CodePoint} (h : ∀ c ∈ points, c.isDigit = true) :
    digitsValue points < 10 ^ points.length := by
  obtain ⟨digits, rfl, hdigits⟩ := exists_eq_map_char h
  rw [digitsValue_map_char, List.length_map]
  exact ofDigitChars_lt hdigits

theorem fractionDigits_of_head?_ne {text : List CodePoint} (h : text.head? ≠ some (.char '.')) :
    fractionDigits text = [] := by
  unfold fractionDigits
  split
  · exact absurd rfl h
  · rfl

theorem fractionDigits_of_ended (hrest : Ended rest) : fractionDigits rest = [] := by
  apply fractionDigits_of_head?_ne
  intro h
  exact absurd (hrest (.char '.') h) (by decide)

theorem powerOfTen?_of_ended (hrest : Ended rest) : powerOfTen? rest = none := by
  cases rest with
  | nil => rfl
  | cons c rest =>
      have hc : ¬ (c = .char 'e' ∨ c = .char 'E') := by
        rintro (rfl | rfl) <;> exact absurd (hrest _ rfl) (by decide)
      simp [powerOfTen?, hc]

/-- The sign of a number that is read. -/
def minusText (negative : Bool) : List CodePoint := if negative then [.char '-'] else []

theorem map_char_minus (p : Prop) [Decidable p] :
    (if p then ['-'] else []).map CodePoint.char = minusText (decide p) := by
  by_cases h : p <;> simp [minusText, h]

/-- No word opens with a digit, nor with a minus and a digit. -/
theorem find?_words_signed (negative : Bool) {c : Char} (hc : c.isDigit = true)
    (s : List CodePoint) :
    (words.find? fun word => word.1.isPrefixOf (minusText negative ++ .char c :: s)) = none := by
  have hne (d : Char) (hd : d.isDigit = false) : d ≠ c := by
    rintro rfl
    rw [hc] at hd
    cases hd
  rw [List.find?_eq_none]
  cases negative with
  | true => simp [words, minusText, hne 'I' rfl]
  | false =>
      simp [words, minusText, hne 'n' rfl, hne 't' rfl, hne 'f' rfl, hne 'N' rfl, hne 'I' rfl,
        hne '-' rfl]

/-- What opens with a digit, or with a minus and a digit, is read as a number of that sign. -/
theorem scalar_of_unsigned {negative : Bool} {c : Char} (hc : c.isDigit = true)
    {s : List CodePoint} {result : Except Stop (Value × List CodePoint)}
    (h : unsigned negative (.char c :: s) = some result) :
    scalar (minusText negative ++ .char c :: s) = result := by
  rw [scalar, find?_words_signed negative hc]
  cases negative with
  | true =>
      simp only [minusText, ↓reduceIte, List.cons_append, List.nil_append, number, h]
      rfl
  | false =>
      have hminus : c ≠ '-' := by
        rintro rfl
        cases hc
      simp [minusText, number, hminus, h]

/-- The parts of a written number that is not whole: the digits before and after its point, and the
sign and the digits of its power of ten if it has one. -/
structure Numeral where
  whole : List Char
  fraction : List Char
  power : Option (Bool × List Char)
  whole_ne_nil : whole ≠ []
  whole_digits : ∀ c ∈ whole, c.isDigit = true
  leading_zero : whole.head? = some '0' → whole = ['0']
  fraction_digits : ∀ c ∈ fraction, c.isDigit = true
  power_ne_nil : ∀ p ∈ power, p.2 ≠ []
  power_digits : ∀ p ∈ power, ∀ c ∈ p.2, c.isDigit = true
  not_whole : fraction ≠ [] ∨ power ≠ none

namespace Numeral

/-- The point and the digits behind it. -/
def pointText (n : Numeral) : List Char := if n.fraction = [] then [] else '.' :: n.fraction

/-- The power of ten with its mark and its sign. -/
def powerText (n : Numeral) : List Char :=
  n.power.elim [] fun p => 'e' :: (if p.1 then '-' else '+') :: p.2

/-- How a number is written. -/
def text (n : Numeral) : List Char := n.whole ++ (n.pointText ++ n.powerText)

/-- The power of ten as a number. -/
def powerValue (n : Numeral) : Int :=
  n.power.elim 0 fun p =>
    if p.1 then -(Nat.ofDigitChars 10 p.2 0 : Int) else (Nat.ofDigitChars 10 p.2 0 : Int)

/-- The decimal that a numeral stands for. -/
def decimal (n : Numeral) : Decimal :=
  ⟨Nat.ofDigitChars 10 (n.whole ++ n.fraction) 0, n.powerValue - (n.fraction.length : Int)⟩

/-- A number with a point and without a power of ten. -/
def plain (whole fraction : List Char) (hwhole : whole ≠ [])
    (hdigits : ∀ c ∈ whole ++ fraction, c.isDigit = true)
    (hzero : whole.head? = some '0' → whole = ['0']) (hfraction : fraction ≠ []) : Numeral where
  whole := whole
  fraction := fraction
  power := none
  whole_ne_nil := hwhole
  whole_digits := (List.forall_mem_append.mp hdigits).1
  leading_zero := hzero
  fraction_digits := (List.forall_mem_append.mp hdigits).2
  power_ne_nil := nofun
  power_digits := nofun
  not_whole := .inl hfraction

theorem text_plain (whole fraction : List Char) (hwhole : whole ≠ [])
    (hdigits : ∀ c ∈ whole ++ fraction, c.isDigit = true)
    (hzero : whole.head? = some '0' → whole = ['0']) (hfraction : fraction ≠ []) :
    (plain whole fraction hwhole hdigits hzero hfraction).text = whole ++ '.' :: fraction := by
  simp [plain, text, pointText, powerText, hfraction]

theorem decimal_plain (whole fraction : List Char) (hwhole : whole ≠ [])
    (hdigits : ∀ c ∈ whole ++ fraction, c.isDigit = true)
    (hzero : whole.head? = some '0' → whole = ['0']) (hfraction : fraction ≠ []) :
    (plain whole fraction hwhole hdigits hzero hfraction).decimal =
      ⟨Nat.ofDigitChars 10 (whole ++ fraction) 0, -(fraction.length : Int)⟩ := by
  simp [plain, decimal, powerValue]

variable (n : Numeral)

theorem undigited_powerText_append (hrest : Ended rest) :
    Undigited (n.powerText.map .char ++ rest) := by
  rw [powerText]
  cases n.power with
  | none => exact hrest.undigited
  | some p => exact undigited_cons rfl _

theorem undigited_pointText_append (hrest : Ended rest) :
    Undigited (n.pointText.map .char ++ (n.powerText.map .char ++ rest)) := by
  rw [pointText]
  split
  · exact n.undigited_powerText_append hrest
  · exact undigited_cons rfl _

theorem wholeDigits_text_append (hrest : Ended rest) :
    wholeDigits (n.whole.map .char ++ (n.pointText.map .char ++ (n.powerText.map .char ++ rest))) =
      n.whole.map .char :=
  wholeDigits_append n.whole_ne_nil n.whole_digits n.leading_zero
    (n.undigited_pointText_append hrest)

theorem fractionDigits_pointText_append (hrest : Ended rest) :
    fractionDigits (n.pointText.map .char ++ (n.powerText.map .char ++ rest)) =
      n.fraction.map .char := by
  rw [pointText]
  split
  · next hnil =>
    rw [hnil, List.map_nil, List.nil_append, powerText]
    cases n.power with
    | none => exact fractionDigits_of_ended hrest
    | some p => rfl
  · exact takeWhile_isDigit_append n.fraction_digits (n.undigited_powerText_append hrest)

theorem powerOfTen?_powerText_append (hrest : Ended rest) :
    powerOfTen? (n.powerText.map .char ++ rest) =
      n.power.map fun p => (n.powerValue, 2 + p.2.length) := by
  rw [powerText, powerValue]
  cases hpower : n.power with
  | none => exact powerOfTen?_of_ended hrest
  | some p =>
      obtain ⟨negative, digits⟩ := p
      have hdigits :
          (digits.map CodePoint.char ++ rest).takeWhile CodePoint.isDigit = digits.map .char :=
        takeWhile_isDigit_append (n.power_digits _ hpower) hrest.undigited
      have hne : digits ≠ [] := n.power_ne_nil _ hpower
      cases negative <;> simp [powerOfTen?, hdigits, hne]

/-- What is left of a text once the point and the fraction have been read. -/
theorem drop_pointText_append (text : List CodePoint) :
    (if (n.fraction.map CodePoint.char).isEmpty then n.pointText.map .char ++ text
      else
        (n.pointText.map CodePoint.char ++ text).drop ((n.fraction.map CodePoint.char).length + 1)) =
        text := by
  rw [pointText]
  by_cases h : n.fraction = []
  · simp [h]
  · simp [h]

/-- A numeral is read as its decimal, up to an end. -/
theorem unsigned_text_append (negative : Bool) (hrest : Ended rest) :
    unsigned negative (n.text.map .char ++ rest) =
      some (.ok (.real (n.decimal.toDouble negative), rest)) := by
  have hwhole : (n.whole.map CodePoint.char).isEmpty = false := by
    simpa using n.whole_ne_nil
  have hreal : ((n.fraction.map CodePoint.char).isEmpty && (n.power.map fun p =>
      (n.powerValue, 2 + p.2.length)).isNone) = false := by
    rcases n.not_whole with h | h
    · simp [h]
    · simp [Option.isSome_iff_ne_none.mpr h]
  have hpower : (n.power.map fun p => (n.powerValue, 2 + p.2.length)).elim 0 (·.1) =
      n.powerValue := by
    rw [powerValue]
    cases n.power <;> rfl
  have hdrop : (n.powerText.map CodePoint.char ++ rest).drop ((n.power.map fun p =>
      (n.powerValue, 2 + p.2.length)).elim 0 (·.2)) = rest := by
    rw [powerText]
    cases n.power <;> simp [Nat.add_comm 2]
  rw [text, List.map_append, List.map_append, List.append_assoc, List.append_assoc]
  simp only [unsigned, n.wholeDigits_text_append hrest, hwhole, List.drop_left,
    n.fractionDigits_pointText_append hrest, n.drop_pointText_append,
    n.powerOfTen?_powerText_append hrest, hreal, hpower, hdrop, ← List.map_append,
    digitsValue_map_char]
  simp only [Bool.false_eq_true, ↓reduceIte, List.length_map]
  rfl

theorem scalar_text_append (negative : Bool) (hrest : Ended rest) :
    scalar (minusText negative ++ (n.text.map .char ++ rest)) =
      .ok (.real (n.decimal.toDouble negative), rest) := by
  have hunsigned := n.unsigned_text_append negative hrest
  obtain ⟨c, others, hwhole⟩ := List.exists_cons_of_ne_nil n.whole_ne_nil
  have hc : c.isDigit = true := n.whole_digits c (by simp [hwhole])
  rw [text, hwhole, List.cons_append, List.map_cons, List.cons_append] at hunsigned ⊢
  exact scalar_of_unsigned hc hunsigned

end Numeral

end RecordRegistry.Json
