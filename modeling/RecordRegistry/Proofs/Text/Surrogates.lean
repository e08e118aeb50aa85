import RecordRegistry.Text.Utf8

/-!
# Texts that have bytes

A text has bytes exactly when no surrogate stands in it. They are those of its characters, so that
bytes belong to one text only.
-/

namespace RecordRegistry

@[simp]
theorem CodePoint.isSurrogate_char (c : Char) : (char c).isSurrogate = false := rfl

theorem CodePoint.isSurrogate_map_char (chars : List Char) :
    ∀ c ∈ chars.map char, c.isSurrogate = false :=
  List.forall_mem_map.mpr fun c _ => isSurrogate_char c

namespace Text

variable {text other : Text} {bytes : List UInt8}

/-- A text of characters, behind some that have been read, has their bytes. -/
theorem Utf8.encodeFrom_map_char (position : Nat) (before chars : List Char) :
    encodeFrom position before (chars.map .char) = .ok (encode (before.reverse ++ chars)) := by
  induction chars generalizing position before with
  | nil => simp [encodeFrom]
  | cons c chars ih => simp [encodeFrom, ih]

/-- Nothing but characters is written. -/
theorem Utf8.exists_of_encodeFrom {position : Nat} {before : List Char} {points : List CodePoint}
    (h : encodeFrom position before points = .ok bytes) :
    ∃ chars : List Char, points = chars.map .char := by
  induction points generalizing position before with
  | nil => exact ⟨[], rfl⟩
  | cons point points ih =>
      cases point with
      | char c =>
          obtain ⟨chars, rfl⟩ := ih h
          exact ⟨c :: chars, rfl⟩
      | surrogate s => cases h

/-- The bytes of a text are those of the characters that it consists of. -/
theorem utf8_eq_ok_iff :
    text.utf8 = .ok bytes ↔
      ∃ chars : List Char, text.toList = chars.map .char ∧ bytes = Utf8.encode chars := by
  constructor
  · intro h
    obtain ⟨chars, hchars⟩ := Utf8.exists_of_encodeFrom h
    rw [utf8, hchars, Utf8.encodeFrom_map_char] at h
    cases h
    exact ⟨chars, hchars, rfl⟩
  · rintro ⟨chars, hchars, rfl⟩
    rw [utf8, hchars, Utf8.encodeFrom_map_char]
    rfl

/-- Two texts with the same bytes are one. -/
theorem utf8_inj (h : text.utf8 = .ok bytes) (hother : other.utf8 = .ok bytes) : text = other := by
  obtain ⟨chars, htext, hbytes⟩ := utf8_eq_ok_iff.mp h
  obtain ⟨others, hothers, hbytes'⟩ := utf8_eq_ok_iff.mp hother
  apply ext
  rw [htext, hothers, Utf8.encode_inj (hbytes.symm.trans hbytes')]

theorem surrogateFree_iff_exists_chars :
    text.SurrogateFree ↔ ∃ chars : List Char, text.toList = chars.map .char := by
  obtain ⟨points⟩ := text
  rw [SurrogateFree, toList_ofList]
  constructor
  · intro h
    induction points with
    | nil => exact ⟨[], rfl⟩
    | cons point points ih =>
        rw [List.forall_mem_cons] at h
        obtain ⟨chars, rfl⟩ := ih h.2
        cases point with
        | char c => exact ⟨c :: chars, rfl⟩
        | surrogate s => cases h.1
  · rintro ⟨chars, rfl⟩
    exact CodePoint.isSurrogate_map_char chars

/-- The texts with bytes are those without surrogates. -/
theorem exists_utf8_iff : (∃ bytes, text.utf8 = .ok bytes) ↔ text.SurrogateFree := by
  simp only [utf8_eq_ok_iff, surrogateFree_iff_exists_chars]
  constructor
  · rintro ⟨_, chars, hchars, -⟩
    exact ⟨chars, hchars⟩
  · rintro ⟨chars, hchars⟩
    exact ⟨_, chars, hchars, rfl⟩

theorem surrogateFree_append :
    (text ++ other).SurrogateFree ↔ text.SurrogateFree ∧ other.SurrogateFree := by
  rw [SurrogateFree, toList_append, List.forall_mem_append]
  exact Iff.rfl

theorem surrogateFree_ofString (s : String) : SurrogateFree s :=
  CodePoint.isSurrogate_map_char s.toList

/-- A text without bytes: the first of the surrogates. -/
def lone : Text := ofList [.surrogate ⟨0xD800, by decide, by decide⟩]

end Text

end RecordRegistry
