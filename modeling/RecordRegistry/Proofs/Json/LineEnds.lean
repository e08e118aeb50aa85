import RecordRegistry.Proofs.Json.LineEnds.Text

/-!
# Line ends in JSON

A carriage return is a blank between tokens and is refused wherever else it stands, and so is a line
feed. A text is therefore read as the same value with its line ends unified, or refused for the same
reason at a place that may have moved.
-/

namespace RecordRegistry.Json

open Text (unifyLineEnds)

mutual

/-- A value is the same, with whatever depths the two texts are read. -/
theorem readAlike_value (depth depth' : Nat) (s : List CodePoint) :
    ReadAlike (value depth s) (value depth' (unifyLineEnds s)) := by
  match depth, depth' with
  | 0, _ => exact .tooDeep _
  | _ + 1, 0 => exact .tooDeep' _
  | depth + 1, depth' + 1 =>
      unfold value
      split
      · next rest =>
        rw [Text.unifyLineEnds_other (by decide)]
        exact (readAlike_stringBody _ _ [] rest).map Value.string
      · next rest =>
        rw [Text.unifyLineEnds_other (by decide)]
        simp only [skipSpace_unifyLineEnds]
        split
        · next others hclose =>
          rw [hclose, Text.unifyLineEnds_other (by decide)]
          exact .ok _ others
        · next hclose =>
          split
          · next others hclose' => exact (not_cons_unifyLineEnds (by decide) hclose _ hclose').elim
          · exact readAlike_items depth depth' [] (skipSpace rest)
      · next rest =>
        rw [Text.unifyLineEnds_other (by decide)]
        simp only [skipSpace_unifyLineEnds]
        split
        · next others hclose =>
          rw [hclose, Text.unifyLineEnds_other (by decide)]
          exact .ok _ others
        · next hclose =>
          split
          · next others hclose' => exact (not_cons_unifyLineEnds (by decide) hclose _ hclose').elim
          · exact readAlike_members depth depth' [] (skipSpace rest)
      · next hstring harray hobject =>
        split
        · next rest hrest => exact (not_cons_unifyLineEnds (by decide) hstring rest hrest).elim
        · next rest hrest => exact (not_cons_unifyLineEnds (by decide) harray rest hrest).elim
        · next rest hrest => exact (not_cons_unifyLineEnds (by decide) hobject rest hrest).elim
        · exact readAlike_scalar s

theorem readAlike_items (depth depth' : Nat) (read : List Value) (s : List CodePoint) :
    ReadAlike (items depth read s) (items depth' read (unifyLineEnds s)) := by
  match depth, depth' with
  | 0, _ => exact .tooDeep _
  | _ + 1, 0 => exact .tooDeep' _
  | depth + 1, depth' + 1 =>
      have hitem := readAlike_value depth depth' s
      rw [items, items]
      generalize value depth s = first, value depth' (unifyLineEnds s) = second at hitem
      apply hitem.andThen
      · exact fun _ => rfl
      · exact fun _ => rfl
      intro item rest
      simp only [skipSpace_unifyLineEnds]
      split
      · next others hclose =>
        rw [hclose, Text.unifyLineEnds_other (by decide)]
        exact .ok _ others
      · next others hcomma =>
        rw [hcomma, Text.unifyLineEnds_other (by decide)]
        simp only [skipSpace_unifyLineEnds]
        exact readAlike_items depth depth' (item :: read) (skipSpace others)
      · next hclose hcomma =>
        split
        · next others h => exact (not_cons_unifyLineEnds (by decide) hclose _ h).elim
        · next others h => exact (not_cons_unifyLineEnds (by decide) hcomma _ h).elim
        · exact .fault _ _ _

theorem readAlike_members (depth depth' : Nat) (read : List (Text × Value)) (s : List CodePoint) :
    ReadAlike (members depth read s) (members depth' read (unifyLineEnds s)) := by
  match depth, depth' with
  | 0, _ => exact .tooDeep _
  | _ + 1, 0 => exact .tooDeep' _
  | depth + 1, depth' + 1 =>
      unfold members
      split
      · next s =>
        rw [Text.unifyLineEnds_other (by decide)]
        have hname := readAlike_stringBody (.char '\x22' :: s) (.char '\x22' :: unifyLineEnds s) [] s
        simp only
        generalize stringBody (.char '\x22' :: s) [] s = first,
          stringBody (.char '\x22' :: unifyLineEnds s) [] (unifyLineEnds s) = second at hname ⊢
        apply hname.andThen
        · exact fun _ => rfl
        · exact fun _ => rfl
        intro name rest
        simp only [skipSpace_unifyLineEnds]
        split
        · next others hcolon =>
          rw [hcolon, Text.unifyLineEnds_other (by decide)]
          simp only [skipSpace_unifyLineEnds]
          have hmember := readAlike_value depth depth' (skipSpace others)
          generalize value depth (skipSpace others) = first,
            value depth' (unifyLineEnds (skipSpace others)) = second at hmember ⊢
          apply hmember.andThen
          · exact fun _ => rfl
          · exact fun _ => rfl
          intro member rest
          simp only [skipSpace_unifyLineEnds]
          split
          · next others hclose =>
            rw [hclose, Text.unifyLineEnds_other (by decide)]
            exact .ok _ others
          · next others hcomma =>
            rw [hcomma, Text.unifyLineEnds_other (by decide)]
            simp only [skipSpace_unifyLineEnds]
            exact readAlike_members depth depth' ((name, member) :: read) (skipSpace others)
          · next hclose hcomma =>
            split
            · next others h => exact (not_cons_unifyLineEnds (by decide) hclose _ h).elim
            · next others h => exact (not_cons_unifyLineEnds (by decide) hcomma _ h).elim
            · exact .fault _ _ _
        · next hcolon =>
          split
          · next others h => exact (not_cons_unifyLineEnds (by decide) hcolon _ h).elim
          · exact .fault _ _ _
      · next hmark =>
        split
        · next rest hrest => exact (not_cons_unifyLineEnds (by decide) hmark rest hrest).elim
        · exact .fault _ _ _

end

theorem document_of_unmarked {s : List CodePoint}
    (hmark : ∀ rest, s = .char '\uFEFF' :: rest → False) :
    document s =
      match value (2 * s.length + 2) (skipSpace s) with
      | .error stop => .error stop
      | .ok (read, rest) =>
        if (skipSpace rest).isEmpty then .ok read else .error (.fault .extra (skipSpace rest)) := by
  unfold document
  split
  · exact absurd rfl (hmark _)
  · rfl

theorem readAlike_document (s : List CodePoint) :
    ReadAlike ((document s).map (·, [])) ((document (unifyLineEnds s)).map (·, [])) := by
  by_cases hmark : ∃ rest, s = .char '\uFEFF' :: rest
  · obtain ⟨rest, rfl⟩ := hmark
    rw [Text.unifyLineEnds_other (by decide)]
    exact .fault _ _ _
  · have hunmarked : ∀ rest, s = .char '\uFEFF' :: rest → False := fun rest hs => hmark ⟨rest, hs⟩
    have hvalue := readAlike_value (2 * s.length + 2) (2 * (unifyLineEnds s).length + 2) (skipSpace s)
    rw [document_of_unmarked hunmarked,
      document_of_unmarked (not_cons_unifyLineEnds (by decide) hunmarked), skipSpace_unifyLineEnds]
    generalize value (2 * s.length + 2) (skipSpace s) = first,
      value (2 * (unifyLineEnds s).length + 2) (unifyLineEnds (skipSpace s)) = second at hvalue ⊢
    apply hvalue.andThen
    · exact fun _ => rfl
    · exact fun _ => rfl
    intro v rest
    simp only [skipSpace_unifyLineEnds, List.isEmpty_iff, Text.unifyLineEnds_eq_nil_iff]
    split
    · exact .ok v []
    · exact .fault _ _ _

/-- Two refusals for one reason, at places that may differ. -/
inductive ReadError.Moved : ReadError → ReadError → Prop
  | malformed (fault : Fault) (place place' : Place) :
      Moved (.malformed fault place) (.malformed fault place')
  | tooManyDigits (count : Nat) : Moved (.tooManyDigits count) (.tooManyDigits count)

/-- A text with its line ends unified is read as the same value as the text, or both are refused
for the same reason. -/
theorem read_unifyLineEnds (text : List CodePoint) :
    (∃ v, read text = .ok v ∧ read (unifyLineEnds text) = .ok v) ∨
      ∃ e e', read text = .error e ∧ read (unifyLineEnds text) = .error e' ∧ e.Moved e' := by
  have halike := readAlike_document text
  have hdepth := document_ne_tooDeep text
  have hdepth' := document_ne_tooDeep (unifyLineEnds text)
  rw [read, read]
  generalize document text = first, document (unifyLineEnds text) = second at halike hdepth hdepth' ⊢
  cases first with
  | ok v =>
      cases second with
      | ok v' =>
          cases halike
          exact .inl ⟨v, rfl, rfl⟩
      | error stop' =>
          cases halike
          exact absurd rfl hdepth'
  | error stop =>
      cases second with
      | ok v' =>
          cases halike
          exact absurd rfl hdepth
      | error stop' =>
          refine .inr ⟨_, _, rfl, rfl, ?_⟩
          cases halike with
          | fault fault rest rest' => exact .malformed fault _ _
          | tooManyDigits count => exact .tooManyDigits count
          | tooDeep => exact absurd rfl hdepth
          | tooDeep' => exact absurd rfl hdepth'

end RecordRegistry.Json
