/-!
# Texts

A text is a list of code points. Most of them are characters, but an escape in a JSON document can
also write a surrogate, which is no character: it is half of one, and nothing makes sure that its
other half stands beside it. Texts with surrogates are read, compared and stored like any others;
they have no UTF-8 form.
-/

namespace RecordRegistry

/-- One of the code points U+D800 to U+DFFF. -/
structure Surrogate where
  code : Nat
  le_code : 0xD800 ≤ code
  code_lt : code < 0xE000
deriving DecidableEq, Repr

/-- A character, or a surrogate that stands alone. -/
inductive CodePoint where
  | char (c : Char)
  | surrogate (s : Surrogate)
deriving DecidableEq, Repr

namespace CodePoint

instance : Coe Char CodePoint := ⟨char⟩

/-- The number of a code point. -/
def toNat : CodePoint → Nat
  | char c => c.toNat
  | surrogate s => s.code

/-- The code point of a number, U+0000 for a number beyond the last one. -/
def ofNat (code : Nat) : CodePoint :=
  if h : 0xD800 ≤ code ∧ code < 0xE000 then surrogate ⟨code, h.1, h.2⟩ else char (Char.ofNat code)

/-- The digits zero to nine. -/
def isDigit : CodePoint → Bool
  | char c => c.isDigit
  | surrogate _ => false

/-- A letter of ASCII in lower case; all else stays as it is. -/
def toLower : CodePoint → CodePoint
  | char c => char c.toLower
  | surrogate s => surrogate s

/-- The character that a code point is. -/
def char? : CodePoint → Option Char
  | char c => some c
  | surrogate _ => none

@[simp]
theorem toNat_char (c : Char) : (char c).toNat = c.toNat := rfl

@[simp]
theorem map_char_inj {chars others : List Char} :
    chars.map char = others.map char ↔ chars = others :=
  List.map_inj_right fun _ _ => char.inj

/-- Whether a code point is a surrogate. -/
def isSurrogate : CodePoint → Bool
  | char _ => false
  | surrogate _ => true

/-- No character has the number of a surrogate. -/
theorem toNat_char_ne (c : Char) (s : Surrogate) : c.toNat ≠ s.code := by
  have hlow := s.le_code
  have hhigh := s.code_lt
  have hvalid : c.toNat < 0xD800 ∨ 0xDFFF < c.toNat ∧ c.toNat < 0x110000 := c.valid
  omega

theorem toNat_inj {a b : CodePoint} (h : a.toNat = b.toNat) : a = b := by
  cases a with
  | char a =>
    cases b with
    | char b => exact congrArg char (Char.toNat_inj.mp h)
    | surrogate b => exact absurd h (toNat_char_ne a b)
  | surrogate a =>
    cases b with
    | char b => exact absurd h.symm (toNat_char_ne b a)
    | surrogate b =>
      cases a
      cases b
      simpa [toNat] using h

end CodePoint

/-- A list of code points. -/
structure Text where
  ofList ::
  toList : List CodePoint
deriving DecidableEq, Repr

namespace Text

/-- The text of a string, which holds characters only. -/
@[coe] def ofString (s : String) : Text := ⟨s.toList.map .char⟩

instance : Coe String Text := ⟨ofString⟩

instance : Append Text := ⟨fun s t => ⟨s.toList ++ t.toList⟩⟩

instance : Inhabited Text := ⟨⟨[]⟩⟩

variable {s t u : Text}

@[ext]
theorem ext (h : s.toList = t.toList) : s = t := by
  cases s
  cases t
  exact congrArg ofList h

@[simp]
theorem ofList_toList (s : Text) : ofList s.toList = s := rfl

@[simp]
theorem toList_ofList (points : List CodePoint) : (ofList points).toList = points := rfl

@[simp]
theorem ofList_inj {points others : List CodePoint} :
    ofList points = ofList others ↔ points = others := by
  rw [ofList.injEq]

@[simp]
theorem toList_ofString (s : String) : (ofString s).toList = s.toList.map .char := rfl

@[simp]
theorem toList_append (s t : Text) : (s ++ t).toList = s.toList ++ t.toList := rfl

@[simp]
theorem ofString_inj {s t : String} : ofString s = ofString t ↔ s = t := by
  constructor
  · intro h
    have hchars := congrArg toList h
    rw [toList_ofString, toList_ofString] at hchars
    exact String.toList_inj.mp (CodePoint.map_char_inj.mp hchars)
  · exact congrArg ofString

@[simp]
theorem ofString_beq (s t : String) : (ofString s == ofString t) = (s == t) := by
  rw [Bool.eq_iff_iff, beq_iff_eq, beq_iff_eq, ofString_inj]

/-- How many code points a text has. -/
def length (s : Text) : Nat := s.toList.length

theorem length_toList (s : Text) : s.toList.length = s.length := rfl

@[simp]
theorem length_ofList (points : List CodePoint) : (ofList points).length = points.length := rfl

@[simp]
theorem length_ofString (s : String) : (ofString s).length = s.length := by
  rw [length, toList_ofString, List.length_map, String.length_toList]

/-- Texts one after the other, with `separator` between each two of them. -/
def intercalate (separator : Text) : List Text → Text
  | [] => ""
  | [text] => text
  | text :: others => text ++ separator ++ intercalate separator others

/-! ## Order by code points -/

/-- The numbers of the code points of a text. -/
def codes (s : Text) : List Nat := s.toList.map CodePoint.toNat

theorem codes_inj (h : s.codes = t.codes) : s = t :=
  ext ((List.map_inj_right fun _ _ => CodePoint.toNat_inj).mp h)

instance : LT Text := ⟨fun s t => s.codes < t.codes⟩

instance : LE Text := ⟨fun s t => List.le s.codes t.codes⟩

instance (s t : Text) : Decidable (s < t) := inferInstanceAs (Decidable (s.codes < t.codes))

instance (s t : Text) : Decidable (s ≤ t) := List.decidableLE s.codes t.codes

theorem lt_irrefl (s : Text) : ¬ s < s := List.lt_irrefl s.codes

theorem le_refl (s : Text) : s ≤ s := List.le_refl s.codes

theorem le_trans (hst : s ≤ t) (htu : t ≤ u) : s ≤ u :=
  List.le_trans (show List.le s.codes t.codes from hst) htu

theorem le_total (s t : Text) : s ≤ t ∨ t ≤ s := List.le_total s.codes t.codes

theorem le_antisymm (hst : s ≤ t) (hts : t ≤ s) : s = t :=
  codes_inj (List.le_antisymm (show List.le s.codes t.codes from hst) hts)

theorem lt_trans (hst : s < t) (htu : t < u) : s < u :=
  List.lt_trans (show s.codes < t.codes from hst) htu

theorem lt_asymm (hst : s < t) : ¬ t < s := fun hts => lt_irrefl s (lt_trans hst hts)

instance : Std.Asymm fun s t : Text => s < t := ⟨fun _ _ => lt_asymm⟩

theorem ne_of_lt (hst : s < t) : s ≠ t := by
  rintro rfl
  exact lt_irrefl s hst

theorem not_lt : ¬ s < t ↔ t ≤ s := List.not_lt

theorem lt_of_le_of_ne (hle : s ≤ t) (hne : s ≠ t) : s < t :=
  Decidable.byContradiction fun hlt => hne (le_antisymm hle (not_lt.mp hlt))

theorem lt_trichotomy (s t : Text) : s < t ∨ s = t ∨ t < s := by
  rcases le_total s t with hle | hle
  · by_cases heq : s = t
    · exact .inr (.inl heq)
    · exact .inl (lt_of_le_of_ne hle heq)
  · by_cases heq : s = t
    · exact .inr (.inl heq)
    · exact .inr (.inr (lt_of_le_of_ne hle (Ne.symm heq)))

theorem lt_of_le_of_lt (hst : s ≤ t) (htu : t < u) : s < u :=
  List.lt_of_le_of_lt (show List.le s.codes t.codes from hst) htu

/-! Texts of characters are in the order of the strings. -/

theorem map_toNat_lt {chars others : List Char} :
    chars.map Char.toNat < others.map Char.toNat ↔ chars < others := by
  induction chars generalizing others with
  | nil => cases others <;> simp
  | cons c chars ih =>
    cases others with
    | nil => simp
    | cons d others =>
      have hlt : c.toNat < d.toNat ↔ c < d := Iff.rfl
      rw [List.map_cons, List.map_cons, List.cons_lt_cons_iff, List.cons_lt_cons_iff, hlt,
        Char.toNat_inj, ih]

theorem ofString_lt {s t : String} : ofString s < ofString t ↔ s < t := by
  have hcodes (s : String) : (ofString s).codes = s.toList.map Char.toNat := by
    rw [codes, toList_ofString, List.map_map]
    rfl
  change (ofString s).codes < (ofString t).codes ↔ s.toList < t.toList
  rw [hcodes, hcodes, map_toNat_lt]

@[simp]
theorem ofString_le {s t : String} : ofString s ≤ ofString t ↔ s ≤ t := by
  rw [← not_lt, ofString_lt]
  exact Iff.rfl

end Text

end RecordRegistry
