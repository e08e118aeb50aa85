import Mathlib.Algebra.Order.Field.Power
import Mathlib.Data.Int.Log
import Mathlib.Data.Rat.Floor
import Mathlib.Tactic.FieldSimp
import Mathlib.Tactic.NormNum
import Mathlib.Tactic.Positivity
import RecordRegistry.Number.Shortest

/-!
# Rounding to double precision

What a ratio is rounded to depends on its value only, not on its numerator and denominator, and the
value of a double-precision number is rounded to the number itself. So every number is read back
from its shortest decimal, in whatever way that decimal is written.
-/

namespace RecordRegistry.Double

/-- Dividing by a power of two divides the value by it. -/
theorem unscale_value (num den : Nat) (e : Int) :
    ((unscale num den e).1 : ℚ) / (unscale num den e).2 = (num : ℚ) / den / 2 ^ e := by
  rcases Int.eq_nat_or_neg e with ⟨n, rfl | rfl⟩
  · simp [unscale, div_div]
  · simp [unscale, div_mul_eq_mul_div]

theorem unscale_pos {den : Nat} (hden : 0 < den) (num : Nat) (e : Int) :
    0 < (unscale num den e).2 :=
  Nat.mul_pos hden (Nat.pow_pos (by decide))

/-- A natural number has its binary length as the exponent of its first digit. -/
theorem zpow_log2_le {n : Nat} (hn : 0 < n) :
    (2 : ℚ) ^ (n.log2 : Int) ≤ n ∧ (n : ℚ) < 2 ^ ((n.log2 : Int) + 1) := by
  constructor
  · exact_mod_cast Nat.log2_self_le hn.ne'
  · exact_mod_cast Nat.lt_log2_self

/-- The power of the significand's last digit is that of the first digit less 52, or the least one
of the format. -/
theorem exponentFor_eq {num den : Nat} (hnum : 0 < num) (hden : 0 < den) :
    exponentFor num den = max (Int.log 2 ((num : ℚ) / den) - 52) (-1074) := by
  have hden' : (0 : ℚ) < den := Nat.cast_pos.mpr hden
  have hq : (0 : ℚ) < num / den := div_pos (Nat.cast_pos.mpr hnum) hden'
  obtain ⟨hnumle, hnumlt⟩ := zpow_log2_le hnum
  obtain ⟨hdenle, hdenlt⟩ := zpow_log2_le hden
  have hlower : (num.log2 : Int) - (den.log2 + 1) ≤ Int.log 2 ((num : ℚ) / den) := by
    rw [← Int.zpow_le_iff_le_log (by decide) hq, Nat.cast_ofNat, zpow_sub₀ (by norm_num)]
    exact div_le_div₀ (by positivity) hnumle hden' hdenlt.le
  have hupper : Int.log 2 ((num : ℚ) / den) < (num.log2 : Int) + 1 - den.log2 := by
    rw [← Int.lt_zpow_iff_log_lt (by decide) hq, Nat.cast_ofNat, zpow_sub₀ (by norm_num)]
    exact div_lt_div₀ hnumlt hdenle (by positivity) (by positivity)
  have hdigits (e : Int) : binade * (unscale num den e).2 ≤ (unscale num den e).1 ↔
      52 + e ≤ Int.log 2 ((num : ℚ) / den) := by
    have hpos : (0 : ℚ) < (unscale num den e).2 := Nat.cast_pos.mpr (unscale_pos hden num e)
    rw [← Int.zpow_le_iff_le_log (by decide) hq, Nat.cast_ofNat, zpow_add₀ (by norm_num),
      ← le_div_iff₀ (by positivity), ← unscale_value, le_div_iff₀ hpos]
    norm_num [binade]
    exact_mod_cast Iff.rfl
  rw [exponentFor]
  have hratio := hdigits ((num.log2 : Int) - den.log2 - 52)
  split <;> omega

/-- A common factor of both numbers has no effect. -/
theorem roundHalfEven_mul_right (a b : Nat) {c : Nat} (hc : 0 < c) :
    roundHalfEven (a * c) (b * c) = roundHalfEven a b := by
  have hbelow : 2 * (a % b * c) < b * c ↔ 2 * (a % b) < b := by
    rw [← Nat.mul_assoc, Nat.mul_lt_mul_right hc]
  have habove : b * c < 2 * (a % b * c) ↔ b < 2 * (a % b) := by
    rw [← Nat.mul_assoc, Nat.mul_lt_mul_right hc]
  simp only [roundHalfEven, Nat.mul_div_mul_right _ _ hc, Nat.mul_mod_mul_right, hbelow, habove]

theorem roundHalfEven_congr {a b c d : Nat} (hb : 0 < b) (hd : 0 < d)
    (h : (a : ℚ) / b = (c : ℚ) / d) : roundHalfEven a b = roundHalfEven c d := by
  have hb' : (b : ℚ) ≠ 0 := Nat.cast_ne_zero.mpr hb.ne'
  have hd' : (d : ℚ) ≠ 0 := Nat.cast_ne_zero.mpr hd.ne'
  have hcross : a * d = c * b := by
    exact_mod_cast (div_eq_div_iff hb' hd').mp h
  rw [← roundHalfEven_mul_right a b hd, hcross, Nat.mul_comm b d, roundHalfEven_mul_right c d hb]

/-- The nearest whole number of a whole number is the number. -/
theorem roundHalfEven_mul_self (n : Nat) {d : Nat} (hd : 0 < d) : roundHalfEven (n * d) d = n := by
  simp [roundHalfEven, Nat.mul_div_cancel n hd, hd]

theorem roundHalfEven_of_lt {a d : Nat} (h : 2 * a < d) : roundHalfEven a d = 0 := by
  have ha : a < d := by omega
  simp [roundHalfEven, Nat.div_eq_of_lt ha, Nat.mod_eq_of_lt ha, h]

/-- The rank that a ratio rounds to is that of its value. -/
theorem rankFor_congr {a b c d : Nat} (ha : 0 < a) (hb : 0 < b) (hc : 0 < c) (hd : 0 < d)
    (h : (a : ℚ) / b = (c : ℚ) / d) : rankFor a b = rankFor c d := by
  have he : exponentFor a b = exponentFor c d := by
    rw [exponentFor_eq ha hb, exponentFor_eq hc hd, h]
  rw [rankFor, rankFor, he]
  rw [roundHalfEven_congr (unscale_pos hb a _) (unscale_pos hd c _)]
  rw [unscale_value, unscale_value, h]

theorem significand_pos {rank : Nat} (hrank : 0 < rank) : 0 < significand rank := by
  rw [significand, binade]
  split <;> omega

/-- Significands have 53 binary digits, or fewer at the least power of the format. -/
theorem significand_lt (rank : Nat) : significand rank < 2 * binade := by
  rw [significand, binade]
  split <;> omega

theorem exponent_cases (rank : Nat) :
    exponent rank = -1074 ∨ -1074 < exponent rank ∧ binade ≤ significand rank := by
  rw [exponent, significand, binade]
  split <;> omega

/-- A rank is told by the exponent and the significand of its number. -/
theorem rank_eq (rank : Nat) :
    (exponent rank + 1074).toNat * binade + significand rank = rank := by
  rw [exponent, significand, binade]
  split <;> omega

/-- The rank of a ratio with the value of a double-precision number is the rank of the number. -/
theorem rankFor_of_value {num den rank : Nat} (hrank : 0 < rank) (hden : 0 < den)
    (h : (num : ℚ) / den = significand rank * 2 ^ exponent rank) : rankFor num den = rank := by
  have hsignificand := significand_pos hrank
  have hq : (0 : ℚ) < significand rank * 2 ^ exponent rank := by positivity
  have hnum : 0 < num := by
    rw [← h] at hq
    exact_mod_cast (div_pos_iff_of_pos_right (Nat.cast_pos.mpr hden)).mp hq
  have hlog (e : Int) : Int.log 2 ((num : ℚ) / den) < e + exponent rank ↔
      (significand rank : ℚ) < 2 ^ e := by
    rw [h, ← Int.lt_zpow_iff_log_lt (by decide) hq, Nat.cast_ofNat, zpow_add₀ (by norm_num)]
    exact mul_lt_mul_iff_left₀ (by positivity)
  have hexponent : exponentFor num den = exponent rank := by
    have hupper : Int.log 2 ((num : ℚ) / den) < 53 + exponent rank := by
      rw [hlog]
      exact_mod_cast significand_lt rank
    rw [exponentFor_eq hnum hden]
    rcases exponent_cases rank with hleast | ⟨hleast, hdigits⟩
    · omega
    · have hlower : ¬ Int.log 2 ((num : ℚ) / den) < 52 + exponent rank := by
        rw [hlog, not_lt]
        exact_mod_cast hdigits
      omega
  have hround : roundHalfEven (unscale num den (exponent rank)).1
      (unscale num den (exponent rank)).2 = significand rank := by
    rw [roundHalfEven_congr (c := significand rank) (unscale_pos hden num _) Nat.one_pos]
    · simpa using roundHalfEven_mul_self (significand rank) Nat.one_pos
    · rw [unscale_value, h, Nat.cast_one, div_one]
      exact mul_div_cancel_right₀ _ (by positivity)
  rw [rankFor, hexponent, hround, rank_eq]

/-- What is too large for the format has a rank beyond the last one. -/
theorem rankCount_le_rankFor {num den : Nat} (hnum : 0 < num) (hden : 0 < den)
    (h : (2 : ℚ) ^ (1025 : Int) ≤ num / den) : rankCount ≤ rankFor num den := by
  have hq : (0 : ℚ) < num / den := div_pos (Nat.cast_pos.mpr hnum) (Nat.cast_pos.mpr hden)
  have hlog : 1025 ≤ Int.log 2 ((num : ℚ) / den) := by
    rw [← Int.zpow_le_iff_le_log (by decide) hq]
    exact_mod_cast h
  have hexponent := exponentFor_eq hnum hden
  have hpower : 2047 ≤ (exponentFor num den + 1074).toNat := by omega
  calc rankCount = 2047 * binade := rfl
    _ ≤ (exponentFor num den + 1074).toNat * binade := Nat.mul_le_mul_right _ hpower
    _ ≤ rankFor num den := Nat.le_add_right _ _

/-- What is nearer to zero than to the least positive number has the rank of zero. -/
theorem rankFor_eq_zero {num den : Nat} (hnum : 0 < num) (hden : 0 < den)
    (h : (num : ℚ) / den < 2 ^ (-1075 : Int)) : rankFor num den = 0 := by
  have hq : (0 : ℚ) < num / den := div_pos (Nat.cast_pos.mpr hnum) (Nat.cast_pos.mpr hden)
  have hlog : Int.log 2 ((num : ℚ) / den) < -1075 := by
    rw [← Int.lt_zpow_iff_log_lt (by decide) hq]
    exact_mod_cast h
  have hexponent : exponentFor num den = -1074 := by
    rw [exponentFor_eq hnum hden]
    omega
  have hhalf : 2 * (unscale num den (-1074)).1 < (unscale num den (-1074)).2 := by
    have hpos : (0 : ℚ) < (unscale num den (-1074)).2 := Nat.cast_pos.mpr (unscale_pos hden num _)
    have hvalue : ((unscale num den (-1074)).1 : ℚ) / (unscale num den (-1074)).2 < 1 / 2 := by
      have hleast : (2 : ℚ) ^ (-1075 : Int) = 1 / 2 * 2 ^ (-1074 : Int) := by
        rw [show (-1075 : Int) = -1 + -1074 from rfl, zpow_add₀ (by norm_num), zpow_neg_one,
          one_div]
      rw [unscale_value, div_lt_iff₀ (by positivity), ← hleast]
      exact h
    rw [div_lt_div_iff₀ hpos two_pos, one_mul, mul_comm] at hvalue
    exact_mod_cast hvalue
  rw [rankFor, hexponent, roundHalfEven_of_lt hhalf]
  rfl

/-- A whole number scaled by a power, as a ratio. -/
theorem scaled_value (base n : Nat) (e : Int) :
    ((n * Nat.pow base e.toNat : Nat) : ℚ) / (Nat.pow base (-e).toNat : Nat) =
      n * (base : ℚ) ^ e := by
  rcases Int.eq_nat_or_neg e with ⟨k, rfl | rfl⟩
  · simp
  · simp [div_eq_mul_inv]

theorem two_zpow_le_ten_zpow {e : Int} (he : 0 ≤ e) : (2 : ℚ) ^ (3 * e) ≤ 10 ^ e := by
  rw [zpow_mul]
  exact zpow_le_zpow_left₀ he (by norm_num) (by norm_num)

/-- The shortcuts of a decimal give what the power of ten would give. -/
theorem ofDecimal_eq {m : Nat} (hm : 0 < m) (negative : Bool) (e : Int) :
    ofDecimal negative m e =
      ofRank negative (rankFor (m * Nat.pow 10 e.toNat) (Nat.pow 10 (-e).toNat)) := by
  have hnum : 0 < m * Nat.pow 10 e.toNat := Nat.mul_pos hm (Nat.pow_pos (by decide))
  have hden : 0 < Nat.pow 10 (-e).toNat := Nat.pow_pos (by decide)
  rw [ofDecimal, if_neg hm.ne']
  split
  · next hlarge =>
    have hrank : rankCount ≤ rankFor (m * Nat.pow 10 e.toNat) (Nat.pow 10 (-e).toNat) := by
      apply rankCount_le_rankFor hnum hden
      rw [scaled_value]
      calc (2 : ℚ) ^ (1025 : Int) ≤ 2 ^ (3 * e) := zpow_le_zpow_right₀ (by norm_num) (by omega)
        _ ≤ 10 ^ e := two_zpow_le_ten_zpow (by omega)
        _ ≤ m * 10 ^ e := le_mul_of_one_le_left (by positivity) (by exact_mod_cast hm)
    rw [ofRank, dif_neg (Nat.not_lt.mpr hrank)]
  · split
    · next hsmall =>
      have hrank : rankFor (m * Nat.pow 10 e.toNat) (Nat.pow 10 (-e).toNat) = 0 := by
        apply rankFor_eq_zero hnum hden
        rw [scaled_value]
        have hpower : (10 : ℚ) ^ e ≤ 2 ^ (3 * e) := by
          have hinv := two_zpow_le_ten_zpow (e := -e) (by omega)
          rw [mul_neg, zpow_neg, zpow_neg] at hinv
          exact (inv_le_inv₀ (by positivity) (by positivity)).mp hinv
        calc (m : ℚ) * 10 ^ e < 2 ^ ((m.log2 : Int) + 1) * 2 ^ (3 * e) :=
              mul_lt_mul_of_lt_of_le_of_pos_of_nonneg (zpow_log2_le hm).2 hpower
                (by positivity) (by positivity)
          _ = 2 ^ ((m.log2 : Int) + 1 + 3 * e) := (zpow_add₀ (by norm_num) _ _).symm
          _ ≤ 2 ^ (-1075 : Int) := zpow_le_zpow_right₀ (by norm_num) (by omega)
      rw [hrank]
    · rw [ofRatio, if_neg hnum.ne']

/-- What a decimal is rounded to depends on its value only. -/
theorem ofDecimal_congr {m n : Nat} {e f : Int} (h : (m : ℚ) * 10 ^ e = n * 10 ^ f)
    (negative : Bool) : ofDecimal negative m e = ofDecimal negative n f := by
  have hzero {m n : Nat} {e f : Int} (h : (m : ℚ) * 10 ^ e = n * 10 ^ f) (hm : m = 0) : n = 0 := by
    subst hm
    simpa [zpow_ne_zero] using h.symm
  rcases Nat.eq_zero_or_pos m with hm | hm
  · simp [ofDecimal, hm, hzero h hm]
  · have hn : 0 < n := Nat.pos_of_ne_zero fun hn => hm.ne' (hzero h.symm hn)
    rw [ofDecimal_eq hm, ofDecimal_eq hn]
    have hpos (k : Nat) : 0 < Nat.pow 10 k := Nat.pow_pos (by decide)
    rw [rankFor_congr (Nat.mul_pos hm (hpos _)) (hpos _) (Nat.mul_pos hn (hpos _)) (hpos _)]
    rw [scaled_value, scaled_value]
    exact h

/-- Finite numbers of one sign are told apart by their ranks. -/
theorem rank_eq_of_ofRank_eq {negative : Bool} {r rank : Nat} (hrank : rank < rankCount)
    (h : ofRank negative r = ofRank negative rank) : r = rank := by
  rw [ofRank, ofRank, dif_pos hrank] at h
  split at h
  · cases h
    rfl
  · cases h

end RecordRegistry.Double

namespace RecordRegistry.Decimal

open Double (ofRank ofDecimal rankCount)

/-- The number that a decimal writes down. -/
def value (d : Decimal) : ℚ := d.digits * 10 ^ d.exponent

/-- Decimals of one value are rounded alike. -/
theorem toDouble_congr {d other : Decimal} (h : d.value = other.value) (negative : Bool) :
    d.toDouble negative = other.toDouble negative :=
  Double.ofDecimal_congr h negative

/-- A decimal is rounded to numbers of the same rank for both signs. -/
theorem toDouble_of_toDouble_false {d : Decimal} {rank : Nat} (hrank : rank < rankCount)
    (h : d.toDouble false = ofRank false rank) (negative : Bool) :
    d.toDouble negative = ofRank negative rank := by
  rw [toDouble] at h ⊢
  rcases Nat.eq_zero_or_pos d.digits with hzero | hpos
  · rw [ofDecimal, if_pos hzero] at h ⊢
    rw [Double.rank_eq_of_ofRank_eq hrank h]
  · rw [Double.ofDecimal_eq hpos] at h ⊢
    rw [Double.rank_eq_of_ofRank_eq hrank h]

theorem exact_value (rank : Nat) :
    (exact rank).value = Double.significand rank * 2 ^ Double.exponent rank := by
  rw [exact, value]
  rcases Int.eq_nat_or_neg (Double.exponent rank) with ⟨k, hk | hk⟩
  · simp [hk]
  · have hten : (10 : ℚ) ^ k = 5 ^ k * 2 ^ k := by
      rw [← mul_pow]
      norm_num
    have hcancel : (5 : ℚ) ^ k * ((2 ^ k)⁻¹ * (5 ^ k)⁻¹) = (2 ^ k)⁻¹ := by field_simp
    simp [hk, hten, mul_assoc, hcancel]

/-- The exact value of a number is rounded to the number. -/
theorem toDouble_exact {rank : Nat} (hpos : 0 < rank) :
    (exact rank).toDouble false = ofRank false rank := by
  have hvalue := exact_value rank
  have hdigits : 0 < (exact rank).digits := by
    apply Nat.pos_of_ne_zero
    intro hzero
    rw [value, hzero, Nat.cast_zero, zero_mul] at hvalue
    have hsignificand := Double.significand_pos hpos
    exact absurd hvalue.symm (by positivity)
  have hden : 0 < Nat.pow 10 (-(exact rank).exponent).toNat := Nat.pow_pos (by decide)
  rw [toDouble, Double.ofDecimal_eq hdigits, Double.rankFor_of_value hpos hden]
  rw [Double.scaled_value]
  exact hvalue

/-- Every number is read back from its shortest decimal. -/
theorem toDouble_shortest {rank : Nat} (hpos : 0 < rank) (hrank : rank < rankCount)
    (negative : Bool) : (shortest rank).toDouble negative = ofRank negative rank := by
  apply toDouble_of_toDouble_false hrank
  unfold shortest
  extract_lets e num den k candidates
  cases hfind : candidates.find? fun d => d.toDouble false = ofRank false rank with
  | none => exact toDouble_exact hpos
  | some d => simpa using List.find?_some hfind

end RecordRegistry.Decimal
