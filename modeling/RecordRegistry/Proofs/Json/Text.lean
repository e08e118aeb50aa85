import RecordRegistry.Json.Printer
import RecordRegistry.Json.Reader.Text
import Mathlib.Tactic.SplitIfs

/-!
# Written texts

A text that is written between quotation marks is read back, whatever follows it. What is written
between the marks therefore ends at the closing one and stands for one text only.
-/

namespace RecordRegistry.Json

/-- Code points that are written as they are are never taken for halves of a pair. -/
theorem joinPieces_map_point (text read : List CodePoint) :
    joinPieces text (read.map Piece.point) = read.reverse ++ text := by
  induction read generalizing text with
  | nil => rfl
  | cons c read ih => simp [joinPieces, ih (c :: text)]

/-- An escape with the number of a character writes the character. -/
theorem Piece.ofUnit_toNat {c : CodePoint} (h : c.toNat < 0xD800) : ofUnit c.toNat = point c := by
  have hpoint : CodePoint.ofNat c.toNat = c := by
    cases c with
    | char c =>
        rw [CodePoint.ofNat, dif_neg (fun hcode => absurd h (Nat.not_lt.mpr hcode.1)),
          CodePoint.toNat_char, Char.ofNat_toNat]
    | surrogate s => exact absurd h (Nat.not_lt.mpr s.le_code)
  rw [ofUnit, hpoint]
  cases c with
  | char c => rfl
  | surrogate s => exact absurd h (Nat.not_lt.mpr s.le_code)

theorem stringBody_unicode (opening : List CodePoint) (read : List Piece) {code : Nat}
    (rest : List CodePoint) (hcode : code < 0x10000) (hrest : rest ≠ []) :
    stringBody opening read (.char '\\' :: .char 'u' :: Text.hex 4 code ++ rest) =
      stringBody opening (.ofUnit code :: read) rest := by
  have hlength := Text.length_hex (by decide : 0 < 4) hcode
  have hvalue := Text.ofHex?_hex 4 code
  match Text.hex 4 code, hlength, hvalue with
  | [a, b, c, d], _, hvalue =>
      have hunit : codeUnit? a b c d rest = some code := by
        simpa [codeUnit?, hrest] using hvalue
      simp [stringBody, hunit]

/-- One written code point is read as itself, so long as something follows it. -/
theorem stringBody_escape (opening : List CodePoint) (read : List Piece) (c : CodePoint)
    (rest : List CodePoint) (hrest : rest ≠ []) :
    stringBody opening read (escape c ++ rest) = stringBody opening (.point c :: read) rest := by
  rw [escape]
  split_ifs with hmark hslash hline hreturn htab hback hform hcontrol
  -- seven characters have a letter of their own behind the backslash
  all_goals try (subst c; simp [stringBody, unescape?])
  · rw [stringBody_unicode opening read rest (by omega) hrest, Piece.ofUnit_toNat (by omega)]
  · simp [stringBody, hcontrol]

/-- A written text is read back up to its closing mark. -/
theorem stringBody_escapes (opening read chars rest : List CodePoint) :
    stringBody opening (read.map Piece.point) (chars.flatMap escape ++ .char '\x22' :: rest) =
      .ok (Text.ofList (read.reverse ++ chars), rest) := by
  induction chars generalizing read with
  | nil => simp [stringBody, joinPieces_map_point]
  | cons c chars ih =>
      have hrest : chars.flatMap escape ++ .char '\x22' :: rest ≠ [] := by simp
      rw [List.flatMap_cons, List.append_assoc, stringBody_escape opening _ c _ hrest]
      simpa using ih (c :: read)

theorem stringText_append (s : Text) (rest : List CodePoint) :
    stringText s ++ rest = .char '\x22' :: (s.toList.flatMap escape ++ .char '\x22' :: rest) := by
  simp [stringText]

/-- What follows a written text tells nothing about it, and the other way round. -/
theorem stringText_append_inj {s t : Text} {rest other : List CodePoint}
    (h : stringText s ++ rest = stringText t ++ other) : s = t ∧ rest = other := by
  rw [stringText_append, stringText_append] at h
  have hbody := (List.cons.inj h).2
  have hs := stringBody_escapes [] [] s.toList rest
  have ht := stringBody_escapes [] [] t.toList other
  rw [hbody, ht] at hs
  simpa [eq_comm] using hs

end RecordRegistry.Json
