import Mathlib.Data.List.Find
import RecordRegistry.Proofs.Json.Depth
import RecordRegistry.Proofs.Json.Numeral
import RecordRegistry.Proofs.Text.LineEnds

/-!
# Line ends and scalars in JSON

A text with its line ends unified is read beside the text itself. Blanks, words and numbers are the
same in both: a line end is a blank, and it ends a number whichever characters it is made of.
-/

namespace RecordRegistry.Json

open Text (unifyLineEnds)

variable {α : Type}

/-- A reading of a text beside the reading of the text with its line ends unified. Both give the
same and leave the same, or stop for the same reason; nothing is said where depth runs out. -/
inductive ReadAlike : Except Stop (α × List CodePoint) → Except Stop (α × List CodePoint) → Prop
  | ok (a : α) (rest : List CodePoint) : ReadAlike (.ok (a, rest)) (.ok (a, unifyLineEnds rest))
  | fault (fault : Fault) (rest rest' : List CodePoint) :
      ReadAlike (.error (.fault fault rest)) (.error (.fault fault rest'))
  | tooManyDigits (count : Nat) :
      ReadAlike (.error (.tooManyDigits count)) (.error (.tooManyDigits count))
  | tooDeep (second : Except Stop (α × List CodePoint)) : ReadAlike (.error .tooDeep) second
  | tooDeep' (first : Except Stop (α × List CodePoint)) : ReadAlike first (.error .tooDeep)

/-- What is read next is alike if it is alike behind everything that can have been read, and a stop
stays a stop. -/
theorem ReadAlike.andThen {β : Type} {first second : Except Stop (α × List CodePoint)}
    {next next' : Except Stop (α × List CodePoint) → Except Stop (β × List CodePoint)}
    (h : ReadAlike first second) (hstop : ∀ stop, next (.error stop) = .error stop)
    (hstop' : ∀ stop, next' (.error stop) = .error stop)
    (hnext : ∀ a rest, ReadAlike (next (.ok (a, rest))) (next' (.ok (a, unifyLineEnds rest)))) :
    ReadAlike (next first) (next' second) := by
  cases h with
  | ok a rest => exact hnext a rest
  | fault fault rest rest' =>
      rw [hstop, hstop']
      exact .fault fault rest rest'
  | tooManyDigits count =>
      rw [hstop, hstop']
      exact .tooManyDigits count
  | tooDeep =>
      rw [hstop]
      exact .tooDeep _
  | tooDeep' =>
      rw [hstop']
      exact .tooDeep' _

theorem ReadAlike.map {β : Type} {first second : Except Stop (α × List CodePoint)}
    (h : ReadAlike first second) (f : α → β) :
    ReadAlike (first.map fun read => (f read.1, read.2))
      (second.map fun read => (f read.1, read.2)) := by
  apply h.andThen
  · exact fun _ => rfl
  · exact fun _ => rfl
  · exact fun a rest => .ok (f a) rest

/-- Blanks are skipped whichever line ends are among them. -/
theorem skipSpace_unifyLineEnds (s : List CodePoint) :
    skipSpace (unifyLineEnds s) = unifyLineEnds (skipSpace s) := by
  have hskip {c : CodePoint} (h : isSpace c = true) (rest : List CodePoint) :
      skipSpace (c :: rest) = skipSpace rest := List.dropWhile_cons_of_pos h
  induction s using Text.lineEndInduction with
  | nil => rfl
  | both rest ih =>
      rw [Text.unifyLineEnds_both, hskip rfl, hskip rfl, hskip rfl, ih]
  | carriageReturn rest hrest ih =>
      rw [Text.unifyLineEnds_return hrest, hskip rfl, hskip rfl, ih]
  | other c rest hc ih =>
      rw [Text.unifyLineEnds_other hc]
      by_cases hspace : isSpace c = true
      · rw [hskip hspace, hskip hspace, ih]
      · have hstay (others : List CodePoint) : skipSpace (c :: others) = c :: others :=
          List.dropWhile_cons_of_neg hspace
        rw [hstay, hstay, Text.unifyLineEnds_other hc]

/-- A mark that does not open a text does not open it with line ends unified. -/
theorem not_cons_unifyLineEnds {c : CodePoint} (hc : c ≠ .char '\n') {s : List CodePoint}
    (h : ∀ rest, s = c :: rest → False) (rest : List CodePoint) :
    unifyLineEnds s = c :: rest → False := by
  intro hrest
  obtain ⟨others, hs, -⟩ := Text.eq_cons_of_unifyLineEnds_eq_cons hc hrest
  exact h others hs

theorem not_mem_of_isDigit {digits : List CodePoint} (h : ∀ c ∈ digits, c.isDigit = true) :
    .char '\r' ∉ digits :=
  fun hmem => absurd (h '\r' hmem) (by decide)

theorem wholeDigits_unifyLineEnds (s : List CodePoint) :
    wholeDigits (unifyLineEnds s) = wholeDigits s := by
  have hdigits := Text.takeWhile_unifyLineEnds (p := CodePoint.isDigit) rfl rfl s
  by_cases hzero : s.head? = some (.char '0')
  · obtain ⟨rest, rfl⟩ := List.head?_eq_some_iff.mp hzero
    rw [Text.unifyLineEnds_other (by decide)]
    rfl
  · rw [wholeDigits, wholeDigits, hdigits]
    · rintro rest rfl
      exact hzero rfl
    · intro rest hrest
      obtain ⟨others, rfl, -⟩ := Text.eq_cons_of_unifyLineEnds_eq_cons (by decide) hrest
      exact hzero rfl

theorem fractionDigits_unifyLineEnds (s : List CodePoint) :
    fractionDigits (unifyLineEnds s) = fractionDigits s := by
  by_cases hpoint : s.head? = some (.char '.')
  · obtain ⟨rest, rfl⟩ := List.head?_eq_some_iff.mp hpoint
    rw [Text.unifyLineEnds_other (by decide), fractionDigits, fractionDigits]
    exact Text.takeWhile_unifyLineEnds rfl rfl rest
  · rw [fractionDigits_of_head?_ne hpoint, fractionDigits_of_head?_ne]
    intro h
    obtain ⟨rest, hrest⟩ := List.head?_eq_some_iff.mp h
    obtain ⟨others, rfl, -⟩ := Text.eq_cons_of_unifyLineEnds_eq_cons (by decide) hrest
    exact hpoint rfl

theorem not_mem_take_length_takeWhile (s : List CodePoint) :
    .char '\r' ∉ s.take (s.takeWhile CodePoint.isDigit).length := by
  rw [← List.prefix_iff_eq_take.mp (List.takeWhile_prefix CodePoint.isDigit)]
  exact not_mem_of_isDigit (List.all_eq_true.mp List.all_takeWhile)

/-- What stands behind the mark of a power of ten: whether it is negative, its digits with the rest
of the text, and how many characters there are in front of the digits, with the mark. -/
def signedDigits (s : List CodePoint) : Bool × List CodePoint × Nat :=
  match s with
  | .char '-' :: digits => (true, digits, 2)
  | .char '+' :: digits => (false, digits, 2)
  | digits => (false, digits, 1)

theorem powerOfTen?_cons {mark : CodePoint} (hmark : mark = .char 'e' ∨ mark = .char 'E')
    (s : List CodePoint) :
    powerOfTen? (mark :: s) =
      let signed := signedDigits s
      let digits := signed.2.1.takeWhile CodePoint.isDigit
      if digits.isEmpty then none
      else
        let power : Int := digitsValue digits
        some (if signed.1 then -power else power, signed.2.2 + digits.length) :=
  if_pos hmark

theorem powerOfTen?_of_head?_ne {s : List CodePoint} (hlower : s.head? ≠ some (.char 'e'))
    (hupper : s.head? ≠ some (.char 'E')) : powerOfTen? s = none := by
  cases s with
  | nil => rfl
  | cons mark s =>
      apply if_neg
      rintro (rfl | rfl)
      · exact hlower rfl
      · exact hupper rfl

theorem signedDigits_unifyLineEnds (s : List CodePoint) :
    signedDigits (unifyLineEnds s) =
      ((signedDigits s).1, unifyLineEnds (signedDigits s).2.1, (signedDigits s).2.2) := by
  have hhead {c : CodePoint} (hc : c ≠ .char '\n') (h : s.head? ≠ some c) (rest : List CodePoint) :
      unifyLineEnds s = c :: rest → False := by
    intro hrest
    obtain ⟨others, rfl, -⟩ := Text.eq_cons_of_unifyLineEnds_eq_cons hc hrest
    exact h rfl
  by_cases hminus : s.head? = some (.char '-')
  · obtain ⟨digits, rfl⟩ := List.head?_eq_some_iff.mp hminus
    rw [Text.unifyLineEnds_other (by decide), signedDigits, signedDigits]
  · by_cases hplus : s.head? = some (.char '+')
    · obtain ⟨digits, rfl⟩ := List.head?_eq_some_iff.mp hplus
      rw [Text.unifyLineEnds_other (by decide), signedDigits, signedDigits]
    · rw [signedDigits.eq_3 _ (hhead (by decide) hminus) (hhead (by decide) hplus),
        signedDigits.eq_3 s (by rintro digits rfl; exact hminus rfl)
          (by rintro digits rfl; exact hplus rfl)]

theorem not_mem_take_signedDigits (s : List CodePoint) (count : Nat)
    (h : .char '\r' ∉ (signedDigits s).2.1.take count) {mark : CodePoint}
    (hmark : mark ≠ .char '\r') :
    .char '\r' ∉ (mark :: s).take ((signedDigits s).2.2 + count) := by
  revert h
  unfold signedDigits
  split <;> intro h
  · simpa [Nat.add_comm 2, Ne.symm hmark] using h
  · simpa [Nat.add_comm 2, Ne.symm hmark] using h
  · simpa [Nat.add_comm 1, Ne.symm hmark] using h

/-- A power of ten and the characters that it takes are the same. -/
theorem powerOfTen?_unifyLineEnds (s : List CodePoint) :
    powerOfTen? (unifyLineEnds s) = powerOfTen? s ∧
      ∀ power ∈ powerOfTen? s, .char '\r' ∉ s.take power.2 := by
  by_cases hmark : ∃ mark rest, s = mark :: rest ∧ (mark = .char 'e' ∨ mark = .char 'E')
  · obtain ⟨mark, rest, rfl, hmark⟩ := hmark
    have hreturn : mark ≠ .char '\r' := by rcases hmark with rfl | rfl <;> decide
    have hdigits :=
      Text.takeWhile_unifyLineEnds (p := CodePoint.isDigit) rfl rfl (signedDigits rest).2.1
    simp only [Text.unifyLineEnds_other hreturn, powerOfTen?_cons hmark,
      signedDigits_unifyLineEnds, hdigits, true_and]
    intro power hpower
    simp only [Option.mem_def, Option.ite_none_left_eq_some, Option.some.injEq] at hpower
    obtain ⟨-, rfl⟩ := hpower
    exact not_mem_take_signedDigits rest _ (not_mem_take_length_takeWhile _) hreturn
  · have hhead {c : CodePoint} (hc : c = .char 'e' ∨ c = .char 'E') {text : List CodePoint}
        (htext : text = s ∨ text = unifyLineEnds s) : text.head? ≠ some c := by
      intro h
      obtain ⟨rest, hrest⟩ := List.head?_eq_some_iff.mp h
      rcases htext with rfl | rfl
      · exact hmark ⟨c, rest, hrest, hc⟩
      · have hfeed : c ≠ .char '\n' := by rcases hc with rfl | rfl <;> decide
        obtain ⟨others, hs, -⟩ := Text.eq_cons_of_unifyLineEnds_eq_cons hfeed hrest
        exact hmark ⟨c, others, hs, hc⟩
    rw [powerOfTen?_of_head?_ne (hhead (.inl rfl) (.inl rfl)) (hhead (.inr rfl) (.inl rfl)),
      powerOfTen?_of_head?_ne (hhead (.inl rfl) (.inr rfl)) (hhead (.inr rfl) (.inr rfl))]
    exact ⟨rfl, by simp⟩

theorem not_mem_take_fractionDigits {s : List CodePoint} (h : fractionDigits s ≠ []) :
    .char '\r' ∉ s.take ((fractionDigits s).length + 1) := by
  by_cases hpoint : s.head? = some (.char '.')
  · obtain ⟨rest, rfl⟩ := List.head?_eq_some_iff.mp hpoint
    rw [fractionDigits, List.take_succ_cons]
    simpa using not_mem_take_length_takeWhile rest
  · exact absurd (fractionDigits_of_head?_ne hpoint) h

theorem not_mem_take_wholeDigits (s : List CodePoint) :
    .char '\r' ∉ s.take (wholeDigits s).length := by
  by_cases hzero : s.head? = some (.char '0')
  · obtain ⟨rest, rfl⟩ := List.head?_eq_some_iff.mp hzero
    simp [wholeDigits]
  · rw [wholeDigits]
    · exact not_mem_take_length_takeWhile s
    · rintro rest rfl
      exact hzero rfl

/-- A number without its sign is the same number. -/
theorem unsigned_unifyLineEnds (negative : Bool) (s : List CodePoint) :
    unsigned negative (unifyLineEnds s) = (unsigned negative s).map fun result =>
      result.map fun read => (read.1, unifyLineEnds read.2) := by
  have hrest := Text.drop_unifyLineEnds (not_mem_take_wholeDigits s)
  have hfraction := fractionDigits_unifyLineEnds (s.drop (wholeDigits s).length)
  have hpoint (text : List CodePoint) :
      (if (fractionDigits text).isEmpty then unifyLineEnds text
        else (unifyLineEnds text).drop ((fractionDigits text).length + 1)) =
      unifyLineEnds (if (fractionDigits text).isEmpty then text
        else text.drop ((fractionDigits text).length + 1)) := by
    split
    · rfl
    · next h =>
      exact Text.drop_unifyLineEnds (not_mem_take_fractionDigits fun hnil => h (by simp [hnil]))
  have hpower (text : List CodePoint) :
      (unifyLineEnds text).drop ((powerOfTen? text).elim 0 (·.2)) =
        unifyLineEnds (text.drop ((powerOfTen? text).elim 0 (·.2))) := by
    cases h : powerOfTen? text with
    | none => rfl
    | some power => exact Text.drop_unifyLineEnds ((powerOfTen?_unifyLineEnds text).2 power h)
  unfold unsigned
  simp only [wholeDigits_unifyLineEnds, hrest, hfraction, hpoint,
    (powerOfTen?_unifyLineEnds _).1, hpower]
  -- the text behind the fraction occurs on both sides
  generalize (if (fractionDigits (s.drop (wholeDigits s).length)).isEmpty then
    s.drop (wholeDigits s).length else _) = behind
  split
  · rfl
  · split
    · split <;> rfl
    · rfl

/-- A number, or the want of a value, is the same. -/
theorem readAlike_number (s : List CodePoint) :
    ReadAlike (number s) (number (unifyLineEnds s)) := by
  have hresult {negative : Bool} {text : List CodePoint} (fallback fallback' : List CodePoint) :
      ReadAlike ((unsigned negative text).getD (.error (.fault .value fallback)))
        ((unsigned negative (unifyLineEnds text)).getD (.error (.fault .value fallback'))) := by
    rw [unsigned_unifyLineEnds]
    cases hread : unsigned negative text with
    | none => exact .fault .value fallback fallback'
    | some result =>
        cases result with
        | ok read => exact .ok read.1 read.2
        | error stop =>
            cases stop with
            | fault fault rest => exact .fault fault rest rest
            | tooManyDigits count => exact .tooManyDigits count
            | tooDeep => exact .tooDeep _
  by_cases hminus : s.head? = some (.char '-')
  · obtain ⟨rest, rfl⟩ := List.head?_eq_some_iff.mp hminus
    rw [Text.unifyLineEnds_other (by decide)]
    exact hresult _ _
  · have hnumber {text : List CodePoint} (h : ∀ rest, text ≠ .char '-' :: rest) :
        number text = (unsigned false text).getD (.error (.fault .value text)) := by
      unfold number
      split
      · exact absurd rfl (h _)
      · rfl
    rw [hnumber, hnumber]
    · exact hresult _ _
    · intro rest hrest
      obtain ⟨others, rfl, -⟩ := Text.eq_cons_of_unifyLineEnds_eq_cons (by decide) hrest
      exact hminus rfl
    · rintro rest rfl
      exact hminus rfl

theorem readAlike_scalar (s : List CodePoint) :
    ReadAlike (scalar s) (scalar (unifyLineEnds s)) := by
  have hwords : ∀ word ∈ words, .char '\r' ∉ word.1 ∧ .char '\n' ∉ word.1 := by
    simp [words]
  have hfind : (words.find? fun word => word.1.isPrefixOf (unifyLineEnds s)) =
      words.find? fun word => word.1.isPrefixOf s := by
    apply List.find?_congr
    intro word hword
    rw [Bool.eq_iff_iff, List.isPrefixOf_iff_prefix, List.isPrefixOf_iff_prefix]
    exact Text.prefix_unifyLineEnds_iff (hwords word hword).1 (hwords word hword).2 s
  rw [scalar, scalar, hfind]
  cases hword : words.find? fun word => word.1.isPrefixOf s with
  | none => exact readAlike_number s
  | some word =>
      have hstart := List.find?_some hword
      have hprefix : word.1 <+: s := List.isPrefixOf_iff_prefix.mp hstart
      have htake : .char '\r' ∉ s.take word.1.length := by
        rw [← List.prefix_iff_eq_take.mp hprefix]
        exact (hwords word (List.mem_of_find?_eq_some hword)).1
      have hok := ReadAlike.ok word.2 (s.drop word.1.length)
      rwa [← Text.drop_unifyLineEnds htake] at hok

end RecordRegistry.Json
