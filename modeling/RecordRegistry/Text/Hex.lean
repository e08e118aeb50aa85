import RecordRegistry.Text

/-!
# Base sixteen
-/

namespace RecordRegistry.Text

/-- A number in base sixteen, lower case, with at least `width` digits. -/
def hex (width n : Nat) : List CodePoint :=
  ((Nat.toDigits 16 n).leftpad width '0').map .char

/-- The value of a digit in base sixteen, of either case. -/
def hexValue? : CodePoint → Option Nat
  | .char c =>
    if '0' ≤ c ∧ c ≤ '9' then some (c.toNat - '0'.toNat)
    else if 'a' ≤ c ∧ c ≤ 'f' then some (c.toNat - 'a'.toNat + 10)
    else if 'A' ≤ c ∧ c ≤ 'F' then some (c.toNat - 'A'.toNat + 10)
    else none
  | .surrogate _ => none

/-- The number that a list of digits in base sixteen writes, most significant first. -/
def ofHex? (digits : List CodePoint) : Option Nat :=
  digits.foldlM (fun value c => (hexValue? c).map (value * 16 + ·)) 0

theorem hexValue?_digitChar : ∀ d < 16, hexValue? (Nat.digitChar d) = some d := by
  decide

theorem ofHex?_append_digitChar (digits : List CodePoint) {d : Nat} (h : d < 16) :
    ofHex? (digits ++ [.char (Nat.digitChar d)]) = (ofHex? digits).map (· * 16 + d) := by
  have hlast (value : Nat) :
      (hexValue? (Nat.digitChar d)).map (value * 16 + ·) = some (value * 16 + d) := by
    rw [hexValue?_digitChar d h, Option.map_some]
  rw [ofHex?, List.foldlM_append]
  change (ofHex? digits).bind _ = _
  cases ofHex? digits with
  | none => rfl
  | some value => simpa using hlast value

theorem ofHex?_replicate_append (count : Nat) (digits : List CodePoint) :
    ofHex? (List.replicate count (.char '0') ++ digits) = ofHex? digits := by
  induction count with
  | zero => rfl
  | succ count ih => exact ih

theorem ofHex?_toDigits (n : Nat) : ofHex? ((Nat.toDigits 16 n).map .char) = some n := by
  induction n using Nat.strongRecOn with
  | ind n ih =>
    rw [Nat.toDigits_eq_if (by decide)]
    split
    · next h =>
      rw [List.map_singleton, ← List.nil_append [_], ofHex?_append_digitChar [] h]
      simp [ofHex?]
    · next h =>
      rw [List.map_append, List.map_singleton,
        ofHex?_append_digitChar _ (Nat.mod_lt n (by decide)), ih (n / 16) (by omega),
        Option.map_some, Nat.div_add_mod' n 16]

/-- Digits in base sixteen are read back as their number. -/
theorem ofHex?_hex (width n : Nat) : ofHex? (hex width n) = some n := by
  rw [hex, List.leftpad, List.map_append, List.map_replicate, ofHex?_replicate_append,
    ofHex?_toDigits]

/-- A number that fits has as many digits as it is asked for. -/
theorem length_hex {width n : Nat} (hwidth : 0 < width) (h : n < Nat.pow 16 width) :
    (hex width n).length = width := by
  have hlength := (Nat.length_toDigits_le_iff (by decide) hwidth).mpr h
  rw [hex, List.length_map, List.length_leftpad]
  omega

end RecordRegistry.Text
