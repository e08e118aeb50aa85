import RecordRegistry.Text.Utf8

/-!
# Line ends of one kind

A text whose line ends are unified holds no carriage return, and a text without one stays as it is.
Texts are unified part by part, unless a line end is cut in two.
-/

namespace RecordRegistry.Text

/-- Induction on a text from its end, with a line end of two characters taken as a whole. -/
@[elab_as_elim]
theorem lineEndInduction {motive : List CodePoint → Prop} (text : List CodePoint) (nil : motive [])
    (both : ∀ rest, motive rest → motive (.char '\r' :: .char '\n' :: rest))
    (carriageReturn : ∀ rest, rest.head? ≠ some (.char '\n') → motive rest →
      motive (.char '\r' :: rest))
    (other : ∀ c rest, c ≠ .char '\r' → motive rest → motive (c :: rest)) : motive text := by
  refine unifyLineEndsFrom.induct (fun _ text => motive text) (fun _ => nil)
    (fun _ rest ih => both rest ih) ?_ (fun _ c rest _ hc ih => other c rest hc ih) [] text
  intro _ rest hrest ih
  refine carriageReturn rest (fun h => ?_) ih
  obtain ⟨tail, htail⟩ := List.head?_eq_some_iff.mp h
  exact hrest tail htail

theorem unifyLineEndsFrom_both (read rest : List CodePoint) :
    unifyLineEndsFrom read (.char '\r' :: .char '\n' :: rest) =
      unifyLineEndsFrom (.char '\n' :: read) rest := by
  rw [unifyLineEndsFrom]

theorem unifyLineEndsFrom_return {rest : List CodePoint} (h : rest.head? ≠ some (.char '\n'))
    (read : List CodePoint) :
    unifyLineEndsFrom read (.char '\r' :: rest) = unifyLineEndsFrom (.char '\n' :: read) rest := by
  rw [unifyLineEndsFrom]
  rintro rest rfl
  exact h rfl

theorem unifyLineEndsFrom_other {c : CodePoint} (h : c ≠ .char '\r') (read rest : List CodePoint) :
    unifyLineEndsFrom read (c :: rest) = unifyLineEndsFrom (c :: read) rest := by
  rw [unifyLineEndsFrom]
  · exact fun _ hc _ => h hc
  · exact h

theorem unifyLineEndsFrom_eq (read text : List CodePoint) :
    unifyLineEndsFrom read text = read.reverse ++ unifyLineEnds text := by
  rw [unifyLineEnds]
  induction text using lineEndInduction generalizing read with
  | nil => simp [unifyLineEndsFrom]
  | both rest ih =>
      rw [unifyLineEndsFrom_both, unifyLineEndsFrom_both, ih, ih ['\n']]
      simp
  | carriageReturn rest hrest ih =>
      rw [unifyLineEndsFrom_return hrest, unifyLineEndsFrom_return hrest, ih, ih ['\n']]
      simp
  | other c rest hc ih =>
      rw [unifyLineEndsFrom_other hc, unifyLineEndsFrom_other hc, ih, ih [c]]
      simp

@[simp] theorem unifyLineEnds_nil : unifyLineEnds [] = [] := rfl

/-- Both characters of a line end become one. -/
@[simp] theorem unifyLineEnds_both (rest : List CodePoint) :
    unifyLineEnds (.char '\r' :: .char '\n' :: rest) = .char '\n' :: unifyLineEnds rest := by
  rw [unifyLineEnds, unifyLineEndsFrom_both, unifyLineEndsFrom_eq]
  rfl

/-- A carriage return alone is a line end, too. -/
theorem unifyLineEnds_return {rest : List CodePoint} (h : rest.head? ≠ some (.char '\n')) :
    unifyLineEnds (.char '\r' :: rest) = .char '\n' :: unifyLineEnds rest := by
  rw [unifyLineEnds, unifyLineEndsFrom_return h, unifyLineEndsFrom_eq]
  rfl

theorem unifyLineEnds_other {c : CodePoint} (h : c ≠ .char '\r') (rest : List CodePoint) :
    unifyLineEnds (c :: rest) = c :: unifyLineEnds rest := by
  rw [unifyLineEnds, unifyLineEndsFrom_other h, unifyLineEndsFrom_eq]
  rfl

/-- Two parts of a text are unified one by one, unless a line end lies across them. -/
theorem unifyLineEnds_append {first second : List CodePoint}
    (h : first.getLast? = some (.char '\r') → second.head? ≠ some (.char '\n')) :
    unifyLineEnds (first ++ second) = unifyLineEnds first ++ unifyLineEnds second := by
  have hlater {c : CodePoint} {rest : List CodePoint}
      (h : (c :: rest).getLast? = some (.char '\r') → second.head? ≠ some (.char '\n'))
      (hrest : rest.getLast? = some (.char '\r')) : second.head? ≠ some (.char '\n') :=
    h (by rw [List.getLast?_cons, hrest]; rfl)
  induction first using lineEndInduction with
  | nil => rfl
  | both rest ih => simp [ih (hlater (hlater h))]
  | carriageReturn rest hrest ih =>
      have hhead : (rest ++ second).head? ≠ some (.char '\n') := by
        cases rest with
        | nil => exact h rfl
        | cons c rest => exact hrest
      rw [List.cons_append, unifyLineEnds_return hhead, unifyLineEnds_return hrest, ih (hlater h)]
      rfl
  | other c rest hc ih =>
      rw [List.cons_append, unifyLineEnds_other hc, unifyLineEnds_other hc, ih (hlater h)]
      rfl

/-- No carriage return is left. -/
theorem not_mem_unifyLineEnds (text : List CodePoint) : .char '\r' ∉ unifyLineEnds text := by
  induction text using lineEndInduction with
  | nil => exact List.not_mem_nil
  | both rest ih => simpa using ih
  | carriageReturn rest hrest ih => simpa [unifyLineEnds_return hrest] using ih
  | other c rest hc ih => simpa [unifyLineEnds_other hc, Ne.symm hc] using ih

theorem unifyLineEnds_of_not_mem {text : List CodePoint} (h : .char '\r' ∉ text) :
    unifyLineEnds text = text := by
  induction text with
  | nil => rfl
  | cons c rest ih =>
      rw [List.mem_cons, not_or] at h
      rw [unifyLineEnds_other (Ne.symm h.1), ih h.2]

theorem unifyLineEnds_append_of_not_mem {first : List CodePoint} (h : .char '\r' ∉ first)
    (second : List CodePoint) : unifyLineEnds (first ++ second) = first ++ unifyLineEnds second := by
  rw [unifyLineEnds_append, unifyLineEnds_of_not_mem h]
  exact fun hlast => absurd (List.mem_of_getLast? hlast) h

@[simp] theorem unifyLineEnds_eq_nil_iff {text : List CodePoint} :
    unifyLineEnds text = [] ↔ text = [] := by
  induction text using lineEndInduction with
  | nil => simp
  | both rest _ => simp
  | carriageReturn rest hrest _ => simp [unifyLineEnds_return hrest]
  | other c rest hc _ => simp [unifyLineEnds_other hc]

/-- A carriage return becomes LF, whether or not it takes another character with it. -/
theorem exists_unifyLineEnds_return (rest : List CodePoint) :
    ∃ others, unifyLineEnds (.char '\r' :: rest) = .char '\n' :: others := by
  by_cases hfeed : rest.head? = some (.char '\n')
  · obtain ⟨others, rfl⟩ := List.head?_eq_some_iff.mp hfeed
    exact ⟨_, unifyLineEnds_both others⟩
  · exact ⟨_, unifyLineEnds_return hfeed⟩

/-- A character that is not LF has been there before. -/
theorem eq_cons_of_unifyLineEnds_eq_cons {text rest : List CodePoint} {c : CodePoint}
    (hc : c ≠ .char '\n')
    (h : unifyLineEnds text = c :: rest) :
    ∃ others, text = c :: others ∧ unifyLineEnds others = rest := by
  induction text using lineEndInduction with
  | nil => cases h
  | both others _ =>
      rw [unifyLineEnds_both, List.cons.injEq] at h
      exact absurd h.1.symm hc
  | carriageReturn others hothers _ =>
      rw [unifyLineEnds_return hothers, List.cons.injEq] at h
      exact absurd h.1.symm hc
  | other d others hd _ =>
      rw [unifyLineEnds_other hd, List.cons.injEq] at h
      exact ⟨others, by rw [h.1], h.2⟩

/-- What stands behind characters without a carriage return is unified by itself. -/
theorem drop_unifyLineEnds {text : List CodePoint} {count : Nat} (h : .char '\r' ∉ text.take count) :
    (unifyLineEnds text).drop count = unifyLineEnds (text.drop count) := by
  rcases Nat.le_total count text.length with hle | hle
  · conv => lhs; rw [← List.take_append_drop count text, unifyLineEnds_append_of_not_mem h]
    rw [List.drop_left' (List.length_take_of_le hle)]
  · rw [List.take_of_length_le hle] at h
    rw [unifyLineEnds_of_not_mem h, List.drop_of_length_le hle, unifyLineEnds_nil]

theorem takeWhile_unifyLineEnds {p : CodePoint → Bool} (hreturn : p '\r' = false)
    (hfeed : p '\n' = false) (text : List CodePoint) :
    (unifyLineEnds text).takeWhile p = text.takeWhile p := by
  induction text using lineEndInduction with
  | nil => rfl
  | both rest _ => simp [hreturn, hfeed]
  | carriageReturn rest hrest _ => simp [unifyLineEnds_return hrest, hreturn, hfeed]
  | other c rest hc ih => rw [unifyLineEnds_other hc, List.takeWhile_cons, List.takeWhile_cons, ih]

theorem prefix_unifyLineEnds_iff {start : List CodePoint} (hreturn : .char '\r' ∉ start)
    (hfeed : .char '\n' ∉ start) (text : List CodePoint) :
    start <+: unifyLineEnds text ↔ start <+: text := by
  constructor
  · intro h
    induction start generalizing text with
    | nil => exact List.nil_prefix
    | cons c start ih =>
        simp only [List.mem_cons, not_or] at hreturn hfeed
        obtain ⟨rest, hrest⟩ := h
        obtain ⟨others, rfl, hothers⟩ :=
          eq_cons_of_unifyLineEnds_eq_cons (Ne.symm hfeed.1) hrest.symm
        rw [List.prefix_cons_inj]
        exact ih hreturn.2 hfeed.2 others ⟨rest, hothers.symm⟩
  · rintro ⟨rest, rfl⟩
    rw [unifyLineEnds_append_of_not_mem hreturn]
    exact List.prefix_append _ _

end RecordRegistry.Text
