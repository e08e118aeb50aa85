/-!
# Double-precision numbers

The numbers of a 64-bit binary floating-point format, held by rank: the non-negative finite ones
stand in ascending order, zero has rank 0, and each has one negative twin. `ofRatio` takes a ratio
to the nearest of them, a tie to the one of even rank, and `ofDecimal` does so for a decimal.
All arithmetic is exact, on natural numbers.
-/

namespace RecordRegistry

/-- How many numbers of one sign share a power of two: two to the power of 52. -/
abbrev Double.binade : Nat := 4503599627370496

/-- How many finite numbers have a sign of one kind. -/
abbrev Double.rankCount : Nat := 2047 * binade

/-- A number of the format. Zero has two signs; there is one NaN. -/
inductive Double where
  | finite (negative : Bool) (rank : Fin Double.rankCount)
  | infinity (negative : Bool)
  | nan
deriving DecidableEq, Repr

namespace Double

/-- Whether a number is NaN. -/
def isNaN : Double → Bool
  | nan => true
  | _ => false

/-- There is one NaN. -/
theorem isNaN_iff {x : Double} : x.isNaN = true ↔ x = nan := by
  cases x <;> simp [isNaN]

/-- Whether a number is neither infinite nor NaN. -/
def isFinite : Double → Bool
  | finite _ _ => true
  | _ => false

/-- The finite number of a rank; beyond the last rank lies infinity. -/
def ofRank (negative : Bool) (rank : Nat) : Double :=
  if h : rank < rankCount then finite negative ⟨rank, h⟩ else infinity negative

/-- The significand of the number of a rank. -/
def significand (rank : Nat) : Nat :=
  if rank < binade then rank else binade + rank % binade

/-- The power of two that scales the significand of the number of a rank. -/
def exponent (rank : Nat) : Int :=
  if rank < binade then -1074 else rank / binade - 1075

/-- The ratio `num / den` divided by the power `2 ^ e`, as a ratio. -/
def unscale (num den : Nat) (e : Int) : Nat × Nat :=
  (num * Nat.pow 2 (-e).toNat, den * Nat.pow 2 e.toNat)

/-- The whole number nearest to `num / den`; of two, the even one. -/
def roundHalfEven (num den : Nat) : Nat :=
  let q := num / den
  let r := num % den
  if 2 * r < den then q
  else if den < 2 * r then q + 1
  else if q % 2 = 0 then q else q + 1

/-- The power of two that leaves a significand of 53 binary digits to `num / den`, or the least
power of the format. -/
def exponentFor (num den : Nat) : Int :=
  let e : Int := (num.log2 : Int) - den.log2 - 52
  let ratio := unscale num den e
  max (if binade * ratio.2 ≤ ratio.1 then e else e - 1) (-1074)

/-- The rank that `num / den` rounds to. A significand that rounds up to 54 digits carries into the
next power of its own accord. -/
def rankFor (num den : Nat) : Nat :=
  let e := exponentFor num den
  let ratio := unscale num den e
  (e + 1074).toNat * binade + roundHalfEven ratio.1 ratio.2

/-- The number nearest to `num / den`. -/
def ofRatio (negative : Bool) (num den : Nat) : Double :=
  if num = 0 then ofRank negative 0 else ofRank negative (rankFor num den)

/-- The number nearest to `m * 10 ^ e`. Where `e` alone settles that the decimal lies beyond the
largest or below the least number, no power of ten is formed. -/
def ofDecimal (negative : Bool) (m : Nat) (e : Int) : Double :=
  if m = 0 then ofRank negative 0
  else if 400 < e then infinity negative
  else if e < -((m.log2 / 3 : Nat) + 400 : Int) then ofRank negative 0
  else ofRatio negative (m * Nat.pow 10 e.toNat) (Nat.pow 10 (-e).toNat)

end Double

end RecordRegistry
