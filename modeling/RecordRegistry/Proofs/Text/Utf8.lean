import RecordRegistry.Text.Utf8

/-!
# Text files are read back

The bytes that write a text down are read as that text, with or without a mark in front. Only a text
that opens with the mark's own character would lose it.
-/

namespace RecordRegistry.Text.Utf8

variable {position : Nat} {read : List Char} {rest : List UInt8} {b b₂ b₃ b₄ : UInt8}

theorem isContinuation_iff : isContinuation b = true ↔ 0x80 ≤ b.toNat ∧ b.toNat ≤ 0xBF := by
  simp [isContinuation, UInt8.le_iff_toNat_le]

theorem decodeFrom_one (hb : b.toNat < 0x80) :
    decodeFrom position read (b :: rest) =
      decodeFrom (position + 1) (Char.ofNat b.toNat :: read) rest := by
  rw [decodeFrom.eq_def]
  exact if_pos (UInt8.lt_iff_toNat_lt.mpr hb)

/-- The first byte of several is none that stands alone. -/
theorem lead_of_toNat (hleast : 0xC2 ≤ b.toNat) (hgreatest : b.toNat ≤ 0xF4) :
    ¬ b < 0x80 ∧ ¬ (b < 0xC2 || 0xF4 < b) = true := by
  simp only [UInt8.lt_iff_toNat_lt, Bool.or_eq_true, decide_eq_true_eq, UInt8.reduceToNat]
  omega

theorem decodeFrom_two (hleast : 0xC2 ≤ b.toNat) (hgreatest : b.toNat < 0xE0)
    (hsecond : isSecond b b₂ = true) :
    decodeFrom position read (b :: b₂ :: rest) =
      decodeFrom (position + 2) (Char.ofNat (extend (b.toNat % 32) b₂) :: read) rest := by
  obtain ⟨hone, hlead⟩ := lead_of_toNat hleast (by omega)
  rw [decodeFrom.eq_def]
  dsimp only
  rw [if_neg hone, if_neg hlead]
  simp only [hsecond, Bool.not_true, Bool.false_eq_true, ↓reduceIte]
  rw [if_pos (UInt8.lt_iff_toNat_lt.mpr hgreatest)]

theorem decodeFrom_three (hleast : 0xE0 ≤ b.toNat) (hgreatest : b.toNat < 0xF0)
    (hsecond : isSecond b b₂ = true) (hthird : isContinuation b₃ = true) :
    decodeFrom position read (b :: b₂ :: b₃ :: rest) =
      decodeFrom (position + 3)
        (Char.ofNat (extend (extend (b.toNat % 16) b₂) b₃) :: read) rest := by
  obtain ⟨hone, hlead⟩ := lead_of_toNat (b := b) (by omega) (by omega)
  have htwo : ¬ b < 0xE0 := by
    rw [UInt8.lt_iff_toNat_lt]
    exact Nat.not_lt.mpr hleast
  rw [decodeFrom.eq_def]
  dsimp only
  rw [if_neg hone, if_neg hlead]
  simp only [hsecond, hthird, htwo, Bool.not_true, Bool.false_eq_true, ↓reduceIte]
  rw [if_pos (UInt8.lt_iff_toNat_lt.mpr hgreatest)]

theorem decodeFrom_four (hleast : 0xF0 ≤ b.toNat) (hgreatest : b.toNat ≤ 0xF4)
    (hsecond : isSecond b b₂ = true) (hthird : isContinuation b₃ = true)
    (hfourth : isContinuation b₄ = true) :
    decodeFrom position read (b :: b₂ :: b₃ :: b₄ :: rest) =
      decodeFrom (position + 4)
        (Char.ofNat (extend (extend (extend (b.toNat % 8) b₂) b₃) b₄) :: read) rest := by
  obtain ⟨hone, hlead⟩ := lead_of_toNat (b := b) (by omega) hgreatest
  have htwo : ¬ b < 0xE0 := by
    rw [UInt8.lt_iff_toNat_lt]
    exact Nat.not_lt.mpr (Nat.le_trans (by decide) hleast)
  have hthree : ¬ b < 0xF0 := by
    rw [UInt8.lt_iff_toNat_lt]
    exact Nat.not_lt.mpr hleast
  rw [decodeFrom.eq_def]
  dsimp only
  rw [if_neg hone, if_neg hlead]
  simp only [hsecond, hthird, hfourth, htwo, hthree, Bool.not_true, Bool.false_eq_true, ↓reduceIte]

/-- A second byte is fit for its first one when the two write no overlong form, no surrogate and
nothing beyond the last code point. -/
theorem isSecond_of_toNat (hleast : 0x80 ≤ b₂.toNat) (hgreatest : b₂.toNat ≤ 0xBF)
    (hthree : b.toNat = 0xE0 → 0xA0 ≤ b₂.toNat) (hsurrogate : b.toNat = 0xED → b₂.toNat < 0xA0)
    (hfour : b.toNat = 0xF0 → 0x90 ≤ b₂.toNat) (hlast : b.toNat = 0xF4 → b₂.toNat < 0x90) :
    isSecond b b₂ = true := by
  have hlead (code : UInt8) : (b == code) = true ↔ b.toNat = code.toNat := by
    rw [beq_iff_eq, UInt8.toNat_inj]
  simp only [isSecond, Bool.and_eq_true, Bool.not_eq_true',
    isContinuation_iff, ← Bool.not_eq_true, hlead, UInt8.lt_iff_toNat_lt, UInt8.le_iff_toNat_le,
    decide_eq_true_eq, UInt8.reduceToNat]
  omega

/-- The bytes of a character are read as the character. -/
theorem decodeFrom_utf8EncodeChar (position : Nat) (read : List Char) (c : Char)
    (rest : List UInt8) :
    ∃ next, decodeFrom position read (String.utf8EncodeChar c ++ rest) =
      decodeFrom next (c :: read) rest := by
  have hvalid : c.val.toNat < 0xD800 ∨ 0xDFFF < c.val.toNat ∧ c.val.toNat < 0x110000 := c.valid
  have hchar {code : Nat} (h : code = c.val.toNat) : Char.ofNat code = c := by
    rw [h]
    exact Char.ofNat_toNat c
  have hbyte {n : Nat} (h : n < 256) : (UInt8.ofNat n).toNat = n := by
    simp [Nat.mod_eq_of_lt h]
  generalize hv : c.val.toNat = v at hvalid hchar
  rw [String.utf8EncodeChar.eq_1, hv]
  split
  · next hone =>
    have hb := hbyte (n := v) (by omega)
    refine ⟨position + 1, ?_⟩
    rw [List.singleton_append, decodeFrom_one (by omega), hchar hb]
  · split
    · next hone htwo =>
      have hb := hbyte (n := v / 64 % 32 + 192) (by omega)
      have hb₂ := hbyte (n := v % 64 + 128) (by omega)
      refine ⟨position + 2, ?_⟩
      simp only [List.cons_append, List.nil_append]
      rw [decodeFrom_two (by omega) (by omega)
        (isSecond_of_toNat (by omega) (by omega) (by omega) (by omega) (by omega) (by omega)),
        hchar (by simp only [extend, hb, hb₂]; omega)]
    · split
      · next hone htwo hthree =>
        have hb := hbyte (n := v / 4096 % 16 + 224) (by omega)
        have hb₂ := hbyte (n := v / 64 % 64 + 128) (by omega)
        have hb₃ := hbyte (n := v % 64 + 128) (by omega)
        refine ⟨position + 3, ?_⟩
        simp only [List.cons_append, List.nil_append]
        rw [decodeFrom_three (by omega) (by omega)
          (isSecond_of_toNat (by omega) (by omega) (by omega) (by omega) (by omega) (by omega))
          (isContinuation_iff.mpr (by omega)),
          hchar (by simp only [extend, hb, hb₂, hb₃]; omega)]
      · next hone htwo hthree =>
        have hb := hbyte (n := v / 262144 % 8 + 240) (by omega)
        have hb₂ := hbyte (n := v / 4096 % 64 + 128) (by omega)
        have hb₃ := hbyte (n := v / 64 % 64 + 128) (by omega)
        have hb₄ := hbyte (n := v % 64 + 128) (by omega)
        refine ⟨position + 4, ?_⟩
        simp only [List.cons_append, List.nil_append]
        rw [decodeFrom_four (by omega) (by omega)
          (isSecond_of_toNat (by omega) (by omega) (by omega) (by omega) (by omega) (by omega))
          (isContinuation_iff.mpr (by omega)) (isContinuation_iff.mpr (by omega)),
          hchar (by simp only [extend, hb, hb₂, hb₃, hb₄]; omega)]

theorem decodeFrom_encode (position : Nat) (read : List Char) (text : List Char) :
    decodeFrom position read (encode text) = .ok (read.reverse ++ text) := by
  induction text generalizing position read with
  | nil => simp [encode, decodeFrom]
  | cons c text ih =>
      obtain ⟨next, hnext⟩ := decodeFrom_utf8EncodeChar position read c (encode text)
      rw [encode, List.flatMap_cons, ← encode, hnext, ih]
      simp

/-- The bytes of a text are read as the text. -/
theorem decode_encode (text : List Char) : decode (encode text) = .ok text :=
  decodeFrom_encode 0 [] text

/-- What has been read stays in front of what is still to come. -/
theorem prefix_of_decodeFrom {bytes : List UInt8} {text : List Char}
    (h : decodeFrom position read bytes = .ok text) : read.reverse <+: text := by
  have hearlier {c : Char} {read : List Char} (h : (c :: read).reverse <+: text) :
      read.reverse <+: text :=
    (List.reverse_cons ▸ List.prefix_append read.reverse [c]).trans h
  fun_induction decodeFrom position read bytes with
  | case1 => exact Except.ok.inj h ▸ List.prefix_rfl
  | case2 | case6 | case9 | case12 => next ih => exact hearlier (ih h)
  | _ => cases h

/-- The mark is read as one character. -/
theorem decode_mark_append (rest : List UInt8) :
    decode (mark ++ rest) = decodeFrom 3 ['\uFEFF'] rest := by
  rw [decode, mark]
  exact decodeFrom_three (by decide) (by decide) (by decide) (by decide)

/-- Only a text with the mark's character in front has the mark in front of its bytes. -/
theorem isPrefixOf_mark_encode {text : List Char} (h : text.head? ≠ some '\uFEFF') :
    ¬ mark.isPrefixOf (encode text) = true := by
  rw [List.isPrefixOf_iff_prefix]
  rintro ⟨rest, hrest⟩
  have hread := decode_encode text
  rw [← hrest, decode_mark_append] at hread
  obtain ⟨tail, rfl⟩ := prefix_of_decodeFrom hread
  exact h rfl

/-- The bytes of a text do not end inside the mark, unless there are none. -/
theorem eq_nil_of_encode_isPrefixOf_mark {text : List Char}
    (hlength : (encode text).length < 3) (hmark : (encode text).isPrefixOf mark = true) :
    text = [] := by
  have hread := decode_encode text
  obtain ⟨rest, hrest⟩ := List.isPrefixOf_iff_prefix.mp hmark
  generalize encode text = bytes at hlength hrest hread
  match bytes, hlength, hrest with
  | [], _, _ => exact (Except.ok.inj hread).symm
  | [_], _, hrest =>
      cases hrest
      cases hread
  | [_, _], _, hrest =>
      cases hrest
      cases hread

/-- A file with the bytes of a text has that text, when no mark stands in front. -/
theorem decodeFile_encode {text : List Char} (h : text.head? ≠ some '\uFEFF') :
    decodeFile (encode text) = .ok text := by
  rw [decodeFile]
  split
  · next hshort =>
    simp only [Bool.and_eq_true, decide_eq_true_eq] at hshort
    rw [eq_nil_of_encode_isPrefixOf_mark hshort.1 hshort.2]
  · rw [if_neg (isPrefixOf_mark_encode h), decode_encode]

/-- A mark in front of the bytes of a text is no part of the text. -/
theorem decodeFile_mark_encode (text : List Char) :
    decodeFile (mark ++ encode text) = .ok text := by
  have hshort : ¬ (decide ((mark ++ encode text).length < 3) &&
      (mark ++ encode text).isPrefixOf mark) = true := by
    rw [Bool.and_eq_true, decide_eq_true_eq, List.length_append, show mark.length = 3 from rfl]
    omega
  have hmark : mark.isPrefixOf (mark ++ encode text) = true := by
    rw [List.isPrefixOf_iff_prefix]
    exact List.prefix_append _ _
  rw [decodeFile, if_neg hshort, if_pos hmark]
  exact decode_encode text

end RecordRegistry.Text.Utf8
