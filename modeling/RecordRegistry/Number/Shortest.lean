import RecordRegistry.Number.Double

/-!
# Shortest decimals

A double-precision number is written by the fewest decimal digits that read back as it. Where two
decimals of that many digits do, the nearer one is taken, and of two equally near ones that whose
last digit is even.
-/

namespace RecordRegistry

/-- The decimal `digits * 10 ^ exponent`. -/
structure Decimal where
  digits : Nat
  exponent : Int
deriving DecidableEq, Repr

namespace Decimal

/-- The double-precision number nearest to a decimal. -/
def toDouble (negative : Bool) (d : Decimal) : Double :=
  Double.ofDecimal negative d.digits d.exponent

/-- The ratio `num / den` divided by the power `10 ^ e`, as a ratio. -/
def unscale (num den : Nat) (e : Int) : Nat × Nat :=
  (num * Nat.pow 10 (-e).toNat, den * Nat.pow 10 e.toNat)

/-- The first power of ten above `num / den` among `k`, `k + 1`, and so on. -/
def powerAbove (num den : Nat) (k : Int) : Nat → Int
  | 0 => k
  | steps + 1 =>
    let ratio := unscale num den k
    if ratio.1 < ratio.2 then k else powerAbove num den (k + 1) steps

/-- The least `k` with `num / den < 10 ^ k`, found upward from a guess by the binary length. -/
def magnitude (num den : Nat) : Int :=
  powerAbove num den (((num.log2 : Int) - den.log2 - 1) * 30103 / 100000 - 1) 5

/-- The decimals of exponent `e` next to `num / den`, the nearer one first. -/
def neighbours (num den : Nat) (e : Int) : List Decimal :=
  let ratio := unscale num den e
  let q := ratio.1 / ratio.2
  if Double.roundHalfEven ratio.1 ratio.2 = q then [⟨q, e⟩, ⟨q + 1, e⟩] else [⟨q + 1, e⟩, ⟨q, e⟩]

/-- The whole value of a number, without any rounding. -/
def exact (rank : Nat) : Decimal :=
  let e := Double.exponent rank
  ⟨Double.significand rank * Nat.pow 2 e.toNat * Nat.pow 5 (-e).toNat, min e 0⟩

/-- The shortest decimal of the number of a rank. Seventeen digits always read back; the exact
value stands behind them so that the search has a last resort. -/
def shortest (rank : Nat) : Decimal :=
  let e := Double.exponent rank
  let num := Double.significand rank * Nat.pow 2 e.toNat
  let den := Nat.pow 2 (-e).toNat
  let k := magnitude num den
  let candidates := (List.range 17).flatMap fun n => neighbours num den (k - (n + 1 : Nat))
  (candidates.find? fun d => d.toDouble false = Double.ofRank false rank).getD (exact rank)

end Decimal

end RecordRegistry
