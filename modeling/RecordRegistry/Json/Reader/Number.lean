import RecordRegistry.Json.Fault
import RecordRegistry.Json.Value

/-!
# Reading numbers in JSON

The longest start of a text that is a number is read. It is a whole number of any size unless it has
a fraction or a power of ten.
-/

namespace RecordRegistry.Json

/-- The number that digits write in base ten. -/
def digitsValue (digits : List CodePoint) : Nat :=
  Nat.ofDigitChars 10 (digits.filterMap CodePoint.char?) 0

@[simp]
theorem digitsValue_map_char (digits : List Char) :
    digitsValue (digits.map .char) = Nat.ofDigitChars 10 digits 0 := by
  rw [digitsValue, List.filterMap_map]
  exact congrArg (Nat.ofDigitChars 10 · 0) List.filterMap_some

/-- The digits of a whole number at the start of a text: a zero alone, or digits without a leading
zero. -/
def wholeDigits : List CodePoint → List CodePoint
  | .char '0' :: _ => ['0']
  | s => s.takeWhile CodePoint.isDigit

/-- The digits after a decimal point at the start of a text; none without a digit. -/
def fractionDigits : List CodePoint → List CodePoint
  | .char '.' :: s => s.takeWhile CodePoint.isDigit
  | _ => []

/-- The power of ten at the start of a text, if there is one, and how many characters it takes. -/
def powerOfTen? (s : List CodePoint) : Option (Int × Nat) :=
  match s with
  | mark :: rest =>
    if mark = .char 'e' ∨ mark = .char 'E' then
      let signed := match rest with
        | .char '-' :: digits => (true, digits, 2)
        | .char '+' :: digits => (false, digits, 2)
        | digits => (false, digits, 1)
      let digits := signed.2.1.takeWhile CodePoint.isDigit
      if digits.isEmpty then none
      else
        let power : Int := digitsValue digits
        some (if signed.1 then -power else power, signed.2.2 + digits.length)
    else none
  | [] => none

/-- Reads a number without its sign: the longest start of the text that is one. A number with
neither a fraction nor a power of ten is whole. -/
def unsigned (negative : Bool) (s : List CodePoint) :
    Option (Except Stop (Value × List CodePoint)) :=
  let whole := wholeDigits s
  if whole.isEmpty then none
  else
    let rest := s.drop whole.length
    let fraction := fractionDigits rest
    let rest := if fraction.isEmpty then rest else rest.drop (fraction.length + 1)
    let power := powerOfTen? rest
    if fraction.isEmpty && power.isNone then
      if digitLimit < whole.length then some (.error (.tooManyDigits whole.length))
      else
        let n : Int := digitsValue whole
        some (.ok (.int (if negative then -n else n), rest))
    else
      let m := digitsValue (whole ++ fraction)
      let e := power.elim 0 (·.1) - (fraction.length : Int)
      some (.ok (.real (Double.ofDecimal negative m e), rest.drop (power.elim 0 (·.2))))

/-- Reads a number with its sign, or finds no value at the start of the text. -/
def number (s : List CodePoint) : Except Stop (Value × List CodePoint) :=
  let result := match s with
    | .char '-' :: rest => unsigned true rest
    | s => unsigned false s
  result.getD (.error (.fault .value s))

end RecordRegistry.Json
