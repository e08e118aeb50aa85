import Mathlib.Data.List.TakeWhile
import RecordRegistry.Proofs.Json.ReadBack
import RecordRegistry.Proofs.Number.Rounding

/-!
# Double-precision numbers are read back

In each of the ways to write it, the text of a number is a numeral with the value of the number's
shortest decimal. What is read of it is therefore the number.
-/

namespace RecordRegistry

namespace Layout

open Json (Numeral)

/-- Zeros at the end of digits are all that is dropped. -/
theorem exists_dropTrailingZeros_append (digits : List Char) :
    ∃ count, dropTrailingZeros digits ++ List.replicate count '0' = digits := by
  have hzeros : digits.reverse.takeWhile (· = '0') =
      List.replicate (digits.reverse.takeWhile (· = '0')).length '0' := by
    apply List.eq_replicate_of_mem
    intro c hc
    simpa using List.mem_takeWhile_imp hc
  refine ⟨(digits.reverse.takeWhile (· = '0')).length, List.reverse_injective ?_⟩
  rw [List.reverse_append, dropTrailingZeros, List.reverse_reverse, List.reverse_replicate,
    ← hzeros]
  exact List.takeWhile_append_dropWhile

theorem ofDigitChars_zeros_append (count : Nat) (digits : List Char) :
    Nat.ofDigitChars 10 (List.replicate count '0' ++ digits) 0 = Nat.ofDigitChars 10 digits 0 := by
  rw [Nat.ofDigitChars_append, Nat.ofDigitChars_replicate_zero, Nat.mul_zero]

theorem ofDigitChars_append_zeros (digits : List Char) (count : Nat) :
    Nat.ofDigitChars 10 (digits ++ List.replicate count '0') 0 =
      Nat.ofDigitChars 10 digits 0 * 10 ^ count := by
  rw [Nat.ofDigitChars_append, Nat.ofDigitChars_replicate_zero, Nat.mul_comm]

/-- The decimal of digits with their point at a place. -/
def pointed (digits : List Char) (point : Int) : Decimal :=
  ⟨Nat.ofDigitChars 10 digits 0, point - (digits.length : Int)⟩

variable {digits : List Char}

theorem isDigit_of_mem_zeros (count : Nat) : ∀ c ∈ List.replicate count '0', c.isDigit = true := by
  intro c hc
  rw [List.eq_of_mem_replicate hc]
  decide

/-- With the point in front of the digits, a zero stands before it and zeros may follow it. -/
theorem exists_numeral_of_point_nonpos (hne : digits ≠ [])
    (hdigits : ∀ c ∈ digits, c.isDigit = true) {point : Int} (hpoint : point ≤ 0) :
    ∃ n : Numeral, n.text = '0' :: '.' :: List.replicate (-point).toNat '0' ++ digits ∧
      n.decimal.value = (pointed digits point).value := by
  have hall : ∀ c ∈ ['0'] ++ (List.replicate (-point).toNat '0' ++ digits), c.isDigit = true :=
    List.forall_mem_append.mpr
      ⟨isDigit_of_mem_zeros 1, List.forall_mem_append.mpr ⟨isDigit_of_mem_zeros _, hdigits⟩⟩
  refine ⟨.plain ['0'] (List.replicate (-point).toNat '0' ++ digits) (by simp) hall (fun _ => rfl)
    (by simp [hne]), ?_, ?_⟩
  · rw [Numeral.text_plain]
    rfl
  · have hvalue := ofDigitChars_zeros_append ((-point).toNat + 1) digits
    rw [List.replicate_succ] at hvalue
    have hexponent : -((List.replicate (-point).toNat '0' ++ digits).length : Int) =
        point - (digits.length : Int) := by
      rw [List.length_append, List.length_replicate]
      omega
    rw [Numeral.decimal_plain, List.singleton_append, ← List.cons_append, hvalue, hexponent]
    rfl

/-- With the point among the digits, nothing is added. -/
theorem exists_numeral_of_point_lt (hdigits : ∀ c ∈ digits, c.isDigit = true)
    (hzero : digits.head? ≠ some '0') {point : Int} (hpoint : 0 < point)
    (hlength : point.toNat < digits.length) :
    ∃ n : Numeral, n.text = digits.take point.toNat ++ '.' :: digits.drop point.toNat ∧
      n.decimal.value = (pointed digits point).value := by
  have hall : ∀ c ∈ digits.take point.toNat ++ digits.drop point.toNat, c.isDigit = true := by
    rwa [List.take_append_drop]
  have htake : (digits.take point.toNat).head? = digits.head? := by
    rw [List.head?_take, if_neg (by omega)]
  refine ⟨.plain (digits.take point.toNat) (digits.drop point.toNat) ?_ hall ?_ ?_, ?_, ?_⟩
  · intro hnil
    have hlen := congrArg List.length hnil
    rw [List.length_take, List.length_nil] at hlen
    omega
  · intro h
    exact absurd (htake ▸ h) hzero
  · rw [ne_eq, List.drop_eq_nil_iff]
    omega
  · rw [Numeral.text_plain]
  · have hexponent : -((digits.drop point.toNat).length : Int) =
        point - (digits.length : Int) := by
      rw [List.length_drop]
      omega
    rw [Numeral.decimal_plain, List.take_append_drop, hexponent]
    rfl

/-- With the point behind the digits, zeros fill the gap and one follows the point. -/
theorem exists_numeral_of_length_le (hne : digits ≠ [])
    (hdigits : ∀ c ∈ digits, c.isDigit = true) (hzero : digits.head? ≠ some '0') {point : Int}
    (hlength : digits.length ≤ point.toNat) :
    ∃ n : Numeral,
      n.text = digits ++ List.replicate (point.toNat - digits.length) '0' ++ ['.', '0'] ∧
      n.decimal.value = (pointed digits point).value := by
  have hall : ∀ c ∈ digits ++ List.replicate (point.toNat - digits.length) '0' ++ ['0'],
      c.isDigit = true :=
    List.forall_mem_append.mpr
      ⟨List.forall_mem_append.mpr ⟨hdigits, isDigit_of_mem_zeros _⟩, isDigit_of_mem_zeros 1⟩
  refine ⟨.plain (digits ++ List.replicate (point.toNat - digits.length) '0') ['0']
    (by simp [hne]) hall ?_ (by simp), ?_, ?_⟩
  · rw [List.head?_append_of_ne_nil _ hne]
    exact fun h => absurd h hzero
  · rw [Numeral.text_plain]
  · have hpos := List.length_pos_of_ne_nil hne
    have hpower : (point - (digits.length : Int)) =
        ((point.toNat - digits.length : Nat) : Int) := by omega
    rw [Numeral.decimal_plain, List.append_assoc, ← List.replicate_succ', ofDigitChars_append_zeros,
      pointed, hpower]
    simp only [Decimal.value, List.length_singleton, Nat.cast_mul, Nat.cast_pow, Nat.cast_ofNat,
      Nat.cast_one, zpow_neg_one, zpow_natCast, pow_succ]
    field_simp

theorem exists_numeral_positional (hne : digits ≠ []) (hdigits : ∀ c ∈ digits, c.isDigit = true)
    (hzero : digits.head? ≠ some '0') (point : Int) :
    ∃ n : Numeral, n.text = positional digits point ∧
      n.decimal.value = (pointed digits point).value := by
  rw [positional]
  split
  · next hpoint => exact exists_numeral_of_point_nonpos hne hdigits hpoint
  · next hpoint =>
    split
    · next hlength => exact exists_numeral_of_point_lt hdigits hzero (by omega) hlength
    · next hlength => exact exists_numeral_of_length_le hne hdigits hzero (by omega)

/-- Digits with a power of ten stand for the same decimal. -/
theorem exists_numeral_scientific (layout : Layout) (hne : digits ≠ [])
    (hdigits : ∀ c ∈ digits, c.isDigit = true) (hzero : digits.head? ≠ some '0') (point : Int) :
    ∃ n : Numeral, n.text = layout.scientific digits point ∧ n.decimal = pointed digits point := by
  obtain ⟨first, others, rfl⟩ := List.exists_cons_of_ne_nil hne
  rw [List.forall_mem_cons] at hdigits
  have hpadded : Nat.ofDigitChars 10
      ((Nat.toDigits 10 (point - 1).natAbs).leftpad layout.powerDigits '0') 0 =
        (point - 1).natAbs := by
    rw [List.leftpad, ofDigitChars_zeros_append, Nat.ofDigitChars_ten_toDigits]
  refine ⟨{
    whole := [first]
    fraction := others
    power := some (decide (point - 1 < 0),
      (Nat.toDigits 10 (point - 1).natAbs).leftpad layout.powerDigits '0')
    whole_ne_nil := by simp
    whole_digits := by simpa using hdigits.1
    leading_zero := fun h => absurd h hzero
    fraction_digits := hdigits.2
    power_ne_nil := by
      rintro _ ⟨⟩
      simp [List.leftpad]
    power_digits := by
      rintro _ ⟨⟩
      exact List.forall_mem_append.mpr
        ⟨isDigit_of_mem_zeros _, fun c hc => isDigit_of_mem_toDigits hc⟩
    not_whole := .inr (by simp) }, ?_, ?_⟩
  · cases others <;> simp [Numeral.text, Numeral.pointText, Numeral.powerText, scientific]
  · have hpower : (if point - 1 < 0 then -((point - 1).natAbs : Int) else (point - 1).natAbs) -
        (others.length : Int) = point - ((first :: others).length : Int) := by
      rw [List.length_cons]
      omega
    simp only [Numeral.decimal, Numeral.powerValue, Option.elim_some, hpadded, decide_eq_true_eq,
      hpower]
    rfl

/-- The digits of a decimal without the zeros at their end, with the point where it was, make up the
same value. -/
theorem value_pointed_dropTrailingZeros (d : Decimal) :
    (pointed (dropTrailingZeros (Nat.toDigits 10 d.digits))
      (d.exponent + ((Nat.toDigits 10 d.digits).length : Int))).value = d.value := by
  obtain ⟨count, hcount⟩ := exists_dropTrailingZeros_append (Nat.toDigits 10 d.digits)
  have hlength := congrArg List.length hcount
  have hdigits := ofDigitChars_append_zeros (dropTrailingZeros (Nat.toDigits 10 d.digits)) count
  rw [List.length_append, List.length_replicate] at hlength
  rw [hcount, Nat.ofDigitChars_ten_toDigits] at hdigits
  have hvalue : (d.digits : ℚ) =
      Nat.ofDigitChars 10 (dropTrailingZeros (Nat.toDigits 10 d.digits)) 0 * 10 ^ count := by
    exact_mod_cast hdigits
  have hexponent : d.exponent + ((Nat.toDigits 10 d.digits).length : Int) -
      ((dropTrailingZeros (Nat.toDigits 10 d.digits)).length : Int) = count + d.exponent := by omega
  rw [pointed, Decimal.value, Decimal.value, hvalue, hexponent, zpow_add₀ (by norm_num),
    zpow_natCast, mul_assoc]

/-- Something is left of the digits of a positive number when the zeros at their end are dropped,
and it still opens with the first one. -/
theorem head?_dropTrailingZeros_toDigits {m : Nat} (hm : 0 < m) :
    dropTrailingZeros (Nat.toDigits 10 m) ≠ [] ∧
      (dropTrailingZeros (Nat.toDigits 10 m)).head? ≠ some '0' := by
  have hhead := Json.head?_toDigits_ne_zero hm
  obtain ⟨count, hcount⟩ := exists_dropTrailingZeros_append (Nat.toDigits 10 m)
  have hne : dropTrailingZeros (Nat.toDigits 10 m) ≠ [] := by
    intro hnil
    rw [hnil, List.nil_append] at hcount
    cases count with
    | zero => exact Nat.toDigits_ne_nil hcount.symm
    | succ count => exact hhead (hcount ▸ rfl)
  refine ⟨hne, ?_⟩
  rwa [← hcount, List.head?_append_of_ne_nil _ hne] at hhead

/-- The text of a number's magnitude stands for a decimal that is rounded to the number. -/
theorem exists_numeral_magnitude (layout : Layout) {rank : Nat} (hrank : rank < Double.rankCount) :
    ∃ n : Numeral, n.text = layout.magnitude rank ∧
      ∀ negative, n.decimal.toDouble negative = Double.ofRank negative rank := by
  rcases Nat.eq_zero_or_pos rank with rfl | hpos
  · exact ⟨.plain ['0'] ['0'] (by simp) (isDigit_of_mem_zeros 2) (fun _ => rfl) (by simp), rfl,
      fun _ => rfl⟩
  · have hshortest := Decimal.toDouble_shortest hpos hrank
    have hpositive : 0 < (Decimal.shortest rank).digits := by
      apply Nat.pos_of_ne_zero
      intro hzero
      have hread := hshortest false
      rw [Decimal.toDouble, Double.ofDecimal, if_pos hzero] at hread
      exact hpos.ne (Double.rank_eq_of_ofRank_eq hrank hread)
    obtain ⟨hne, hzero⟩ := head?_dropTrailingZeros_toDigits hpositive
    have hdigits : ∀ c ∈ dropTrailingZeros (Nat.toDigits 10 (Decimal.shortest rank).digits),
        c.isDigit = true := fun c hc => isDigit_of_mem_toDigits (mem_of_mem_dropTrailingZeros hc)
    have hvalue := value_pointed_dropTrailingZeros (Decimal.shortest rank)
    have hread {n : Numeral} (h : n.decimal.value = (Decimal.shortest rank).value)
        (negative : Bool) : n.decimal.toDouble negative = Double.ofRank negative rank := by
      rw [Decimal.toDouble_congr h, hshortest]
    rw [magnitude, if_neg hpos.ne']
    dsimp only
    split
    · obtain ⟨n, htext, hdecimal⟩ := exists_numeral_positional hne hdigits hzero
        ((Decimal.shortest rank).exponent +
          ((Nat.toDigits 10 (Decimal.shortest rank).digits).length : Int))
      exact ⟨n, htext, hread (hdecimal.trans hvalue)⟩
    · obtain ⟨n, htext, hdecimal⟩ := exists_numeral_scientific layout hne hdigits hzero
        ((Decimal.shortest rank).exponent +
          ((Nat.toDigits 10 (Decimal.shortest rank).digits).length : Int))
      exact ⟨n, htext, hread ((congrArg Decimal.value hdecimal).trans hvalue)⟩

end Layout

namespace Json

/-- Every double-precision number is read back from its text. -/
theorem scalar_text_append (x : Double) {rest : List CodePoint} (hrest : Ended rest) :
    scalar ((x.text layout).map .char ++ rest) = .ok (.real x, rest) := by
  cases x with
  | finite negative rank =>
      obtain ⟨n, htext, hread⟩ := layout.exists_numeral_magnitude rank.isLt
      have hscalar := n.scalar_text_append negative hrest
      have hminus := map_char_minus (negative = true)
      rw [Bool.decide_eq_true] at hminus
      rw [hread, Double.ofRank, dif_pos rank.isLt, htext, ← hminus, ← List.append_assoc,
        ← List.map_append] at hscalar
      exact hscalar
  | infinity negative => cases negative <;> rfl
  | nan => rfl

theorem Value.legible_real (x : Double) : (Value.real x).Legible :=
  .real fun _ hrest => scalar_text_append x hrest

/-- Double-precision numbers that are written alike are one number. -/
theorem Value.same_real_iff {v : Value} {x : Double} : Same v (real x) ↔ v = real x := by
  constructor
  · intro h
    cases h with
    | @real y _ htext =>
        have hx := scalar_text_append x ended_nil
        have hy := scalar_text_append y ended_nil
        rw [htext, hx] at hy
        cases hy
        rfl
  · rintro rfl
    exact .real rfl

/-- A value whose whole numbers have no more digits than the reader takes. -/
inductive Value.Short : Value → Prop
  | null : Short null
  | bool (b : Bool) : Short (bool b)
  | int {n : Int} (hlength : (Nat.toDigits 10 n.natAbs).length ≤ digitLimit) : Short (int n)
  | real (x : Double) : Short (real x)
  | string (s : Text) : Short (string s)
  | array {items : List Value} (hitems : ∀ item ∈ items, Short item) : Short (array items)
  | object {members : List (Text × Value)} (hmembers : ∀ member ∈ members, Short member.2) :
      Short (object members)

/-- Distinct names and short whole numbers are all that the reader asks of a written value. -/
theorem Value.Short.legible {v : Value} (h : v.Short) (hdistinct : v.Distinct) : v.Legible := by
  induction h with
  | null => exact .null
  | bool b => exact .bool b
  | int hlength => exact .int hlength
  | real x => exact legible_real x
  | string s => exact .string s
  | array _ ih =>
      rw [distinct_array_iff] at hdistinct
      exact .array fun item hitem => ih item hitem (hdistinct item hitem)
  | object _ ih =>
      obtain ⟨hnames, hmembers⟩ := distinct_object_iff.mp hdistinct
      exact .object hnames fun member hmember => ih member hmember (hmembers member hmember)

end Json

end RecordRegistry
