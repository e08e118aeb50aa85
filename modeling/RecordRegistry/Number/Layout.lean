import RecordRegistry.Number.Shortest

/-!
# Double-precision numbers as text

A finite number is written with its shortest decimal digits, in full while its point lies within
given bounds and with a power of ten outside them.
-/

namespace RecordRegistry

/-- The choices of a number format: the places of the decimal point, counted from before the first
digit, between which a number is written in full; the least count of digits in a power of ten; and
the names of what is not finite. -/
structure Layout where
  leastPoint : Int
  greatestPoint : Int
  powerDigits : Nat
  infinityName : String
  nanName : String
deriving DecidableEq, Repr

namespace Layout

/-- Digits without the zeros at their end. -/
def dropTrailingZeros (digits : List Char) : List Char :=
  (digits.reverse.dropWhile (· = '0')).reverse

/-- Digits in full, with at least one of them on either side of the point. -/
def positional (digits : List Char) (point : Int) : List Char :=
  if point ≤ 0 then '0' :: '.' :: List.replicate (-point).toNat '0' ++ digits
  else if point.toNat < digits.length then
    digits.take point.toNat ++ '.' :: digits.drop point.toNat
  else digits ++ List.replicate (point.toNat - digits.length) '0' ++ ['.', '0']

/-- The first digit, the others after a point, and the power of ten with its sign. -/
def scientific (layout : Layout) (digits : List Char) (point : Int) : List Char :=
  let power := point - 1
  let mantissa := match digits with
    | first :: second :: rest => first :: '.' :: second :: rest
    | few => few
  mantissa ++ 'e' :: (if power < 0 then '-' else '+') ::
    (Nat.toDigits 10 power.natAbs).leftpad layout.powerDigits '0'

/-- The text of the finite number of a rank, without its sign. -/
def magnitude (layout : Layout) (rank : Nat) : List Char :=
  if rank = 0 then ['0', '.', '0']
  else
    let d := Decimal.shortest rank
    let digits := Nat.toDigits 10 d.digits
    let point := d.exponent + digits.length
    let digits := dropTrailingZeros digits
    if layout.leastPoint ≤ point ∧ point ≤ layout.greatestPoint then positional digits point
    else layout.scientific digits point

end Layout

/-- The text of a number; a minus stands for a negative sign, also that of zero. -/
def Double.text (layout : Layout) : Double → List Char
  | .finite negative rank => (if negative then ['-'] else []) ++ layout.magnitude rank
  | .infinity negative => (if negative then ['-'] else []) ++ layout.infinityName.toList
  | .nan => layout.nanName.toList

end RecordRegistry
