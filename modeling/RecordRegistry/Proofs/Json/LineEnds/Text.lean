import RecordRegistry.Proofs.Json.LineEnds.Scalar

/-!
# Line ends and texts in JSON

Between quotation marks no line end may stand, whichever characters it is made of: neither plainly
nor behind a backslash nor among the digits of a code unit.
-/

namespace RecordRegistry.Json

open Text (unifyLineEnds)

theorem isSome_hexValue?_of_mem {digits : List CodePoint}
    (h : (Text.ofHex? digits).isSome = true) : ∀ c ∈ digits, (Text.hexValue? c).isSome = true := by
  suffices hfold : ∀ value : Nat,
      (digits.foldlM (fun value c => (Text.hexValue? c).map (value * 16 + ·)) value).isSome = true →
        ∀ c ∈ digits, (Text.hexValue? c).isSome = true from hfold 0 h
  clear h
  induction digits with
  | nil => simp
  | cons digit rest ih =>
      intro value h
      rw [List.foldlM_cons] at h
      cases hdigit : Text.hexValue? digit with
      | none =>
          rw [hdigit] at h
          cases h
      | some n =>
          rw [hdigit] at h
          rw [List.forall_mem_cons, hdigit]
          exact ⟨rfl, ih _ h⟩

/-- The digits of a code unit hold no line end. -/
theorem ne_of_codeUnit? {a b c d : CodePoint} {rest : List CodePoint} {code : Nat}
    (h : codeUnit? a b c d rest = some code) :
    ∀ digit ∈ [a, b, c, d], digit ≠ .char '\r' ∧ digit ≠ .char '\n' := by
  have hdigits : (Text.ofHex? [a, b, c, d]).isSome = true := by
    rw [codeUnit?, Option.ite_none_left_eq_some] at h
    rw [h.2]
    rfl
  intro digit hdigit
  have hvalue := isSome_hexValue?_of_mem hdigits digit hdigit
  constructor <;> (rintro rfl; exact absurd hvalue (by decide))

/-- The code unit behind the letter `u` and the text behind its digits. -/
def unit? : List CodePoint → Option (Nat × List CodePoint)
  | a :: b :: c :: d :: rest => (codeUnit? a b c d rest).map (·, rest)
  | _ => none

theorem unit?_eq_some_iff {s rest : List CodePoint} {code : Nat} :
    unit? s = some (code, rest) ↔
      ∃ a b c d, s = a :: b :: c :: d :: rest ∧ codeUnit? a b c d rest = some code := by
  unfold unit?
  split
  · next a b c d others =>
    simp only [Option.map_eq_some_iff, Prod.mk.injEq, List.cons.injEq]
    constructor
    · rintro ⟨unit, hunit, rfl, rfl⟩
      exact ⟨a, b, c, d, ⟨rfl, rfl, rfl, rfl, rfl⟩, hunit⟩
    · rintro ⟨_, _, _, _, ⟨rfl, rfl, rfl, rfl, rfl⟩, hunit⟩
      exact ⟨code, hunit, rfl, rfl⟩
  · next hshort =>
    simp only [reduceCtorEq, false_iff]
    rintro ⟨a, b, c, d, rfl, -⟩
    exact hshort a b c d rest rfl

/-- A code unit is read where it is read with line ends unified, and nowhere else. -/
theorem unit?_unifyLineEnds (s : List CodePoint) :
    unit? (unifyLineEnds s) = (unit? s).map fun read => (read.1, unifyLineEnds read.2) := by
  have hcode (a b c d : CodePoint) (rest : List CodePoint) :
      codeUnit? a b c d (unifyLineEnds rest) = codeUnit? a b c d rest := by
    simp [codeUnit?]
  apply Option.ext
  rintro ⟨code, rest⟩
  simp only [unit?_eq_some_iff, Option.map_eq_some_iff, Prod.exists, Prod.mk.injEq]
  constructor
  · rintro ⟨a, b, c, d, hs, hunit⟩
    have hne := ne_of_codeUnit? hunit
    simp only [List.forall_mem_cons] at hne
    obtain ⟨ha, hb, hc, hd, -⟩ := hne
    obtain ⟨s₁, rfl, h₁⟩ := Text.eq_cons_of_unifyLineEnds_eq_cons ha.2 hs
    obtain ⟨s₂, rfl, h₂⟩ := Text.eq_cons_of_unifyLineEnds_eq_cons hb.2 h₁
    obtain ⟨s₃, rfl, h₃⟩ := Text.eq_cons_of_unifyLineEnds_eq_cons hc.2 h₂
    obtain ⟨others, rfl, rfl⟩ := Text.eq_cons_of_unifyLineEnds_eq_cons hd.2 h₃
    rw [hcode] at hunit
    exact ⟨code, others, ⟨a, b, c, d, rfl, hunit⟩, rfl, rfl⟩
  · rintro ⟨_, others, ⟨a, b, c, d, rfl, hunit⟩, rfl, rfl⟩
    have hne := ne_of_codeUnit? hunit
    simp only [List.forall_mem_cons] at hne
    obtain ⟨ha, hb, hc, hd, -⟩ := hne
    refine ⟨a, b, c, d, ?_, (hcode a b c d others).trans hunit⟩
    rw [Text.unifyLineEnds_other ha.1, Text.unifyLineEnds_other hb.1, Text.unifyLineEnds_other hc.1,
      Text.unifyLineEnds_other hd.1]

theorem unit?_of_short {s : List CodePoint} (h : ∀ a b c d rest, s ≠ a :: b :: c :: d :: rest) :
    unit? s = none := by
  rw [Option.eq_none_iff_forall_not_mem]
  rintro ⟨code, rest⟩ hunit
  obtain ⟨a, b, c, d, hs, -⟩ := unit?_eq_some_iff.mp hunit
  exact h a b c d rest hs

section Equations

variable (opening : List CodePoint) (read : List Piece)

theorem stringBody_unit (s : List CodePoint) :
    stringBody opening read (.char '\\' :: .char 'u' :: s) =
      match unit? s with
      | none => .error (.fault .unicodeEscape (.char 'u' :: s))
      | some (code, rest) => stringBody opening (.ofUnit code :: read) rest := by
  by_cases hlong : ∃ a b c d rest, s = a :: b :: c :: d :: rest
  · obtain ⟨a, b, c, d, rest, rfl⟩ := hlong
    rw [stringBody, unit?]
    cases codeUnit? a b c d rest <;> rfl
  · have hshort : ∀ a b c d rest, s ≠ a :: b :: c :: d :: rest :=
      fun a b c d rest hs => hlong ⟨a, b, c, d, rest, hs⟩
    rw [stringBody, unit?_of_short hshort]
    exact hshort

theorem stringBody_letter {letter : CodePoint} (hletter : letter ≠ .char 'u')
    (rest : List CodePoint) :
    stringBody opening read (.char '\\' :: letter :: rest) =
      match unescape? letter with
      | none => .error (.fault .escape (.char '\\' :: letter :: rest))
      | some c => stringBody opening (.point c :: read) rest := by
  rw [stringBody]
  · cases unescape? letter <;> rfl
  · exact fun _ _ _ _ _ h _ => hletter h
  · exact hletter

theorem stringBody_other {c : CodePoint} (hmark : c ≠ .char '\x22') (hslash : c ≠ .char '\\')
    (rest : List CodePoint) :
    stringBody opening read (c :: rest) =
      if c.toNat < 0x20 then .error (.fault .control (c :: rest))
      else stringBody opening (.point c :: read) rest := by
  rw [stringBody]
  · exact hmark
  · exact hslash

end Equations

/-- A text between quotation marks is the same, or is refused for the same reason. -/
theorem readAlike_stringBody (opening opening' : List CodePoint) (read : List Piece)
    (s : List CodePoint) :
    ReadAlike (stringBody opening read s) (stringBody opening' read (unifyLineEnds s)) := by
  fun_induction stringBody opening read s with
  | case1 => exact .fault _ _ _
  | case2 read rest =>
      rw [Text.unifyLineEnds_other (by decide)]
      exact .ok _ rest
  | case3 => exact .fault _ _ _
  | case4 read a b c d rest hunit =>
      have hnone : unit? (a :: b :: c :: d :: rest) = none := by
        rw [unit?, hunit, Option.map_none]
      rw [Text.unifyLineEnds_other (by decide), Text.unifyLineEnds_other (by decide),
        stringBody_unit, unit?_unifyLineEnds, hnone]
      exact .fault _ _ _
  | case5 read a b c d rest code hunit ih =>
      have hsome : unit? (a :: b :: c :: d :: rest) = some (code, rest) := by
        rw [unit?, hunit, Option.map_some]
      rw [Text.unifyLineEnds_other (by decide), Text.unifyLineEnds_other (by decide),
        stringBody_unit, unit?_unifyLineEnds, hsome]
      exact ih
  | case6 read rest hshort =>
      rw [Text.unifyLineEnds_other (by decide), Text.unifyLineEnds_other (by decide),
        stringBody_unit, unit?_unifyLineEnds, unit?_of_short hshort]
      exact .fault _ _ _
  | case7 read letter rest _ hletter c hescape ih =>
      have hreturn : letter ≠ .char '\r' := by
        rintro rfl
        cases hescape
      rw [Text.unifyLineEnds_other (by decide), Text.unifyLineEnds_other hreturn,
        stringBody_letter opening' read hletter, hescape]
      exact ih
  | case8 read letter rest _ hletter hescape =>
      rw [Text.unifyLineEnds_other (by decide)]
      by_cases hreturn : letter = .char '\r'
      · subst hreturn
        obtain ⟨others, hothers⟩ := Text.exists_unifyLineEnds_return rest
        rw [hothers, stringBody_letter opening' read (by decide)]
        exact .fault _ _ _
      · rw [Text.unifyLineEnds_other hreturn, stringBody_letter opening' read hletter, hescape]
        exact .fault _ _ _
  | case9 read c rest hmark hslash hcontrol =>
      by_cases hreturn : c = .char '\r'
      · subst hreturn
        obtain ⟨others, hothers⟩ := Text.exists_unifyLineEnds_return rest
        rw [hothers, stringBody_other opening' read (by decide) (by decide), if_pos (by decide)]
        exact .fault _ _ _
      · rw [Text.unifyLineEnds_other hreturn, stringBody_other opening' read hmark hslash,
          if_pos hcontrol]
        exact .fault _ _ _
  | case10 read c rest hmark hslash hcontrol ih =>
      have hreturn : c ≠ .char '\r' := by
        rintro rfl
        exact hcontrol (by decide)
      rw [Text.unifyLineEnds_other hreturn, stringBody_other opening' read hmark hslash,
        if_neg hcontrol]
      exact ih

end RecordRegistry.Json
