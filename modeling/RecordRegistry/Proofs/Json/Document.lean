import RecordRegistry.Proofs.Json.Real

/-!
# What is read

Every value that is read is legible: it is read again from its own line. Its objects have distinct
names, since the reader of members sees to that, and its whole numbers have no more digits than the
reader has just taken.
-/

namespace RecordRegistry.Json

theorem legible_of_unsigned {negative : Bool} {s rest : List CodePoint} {v : Value}
    (h : unsigned negative s = some (.ok (v, rest))) : v.Legible := by
  unfold unsigned at h
  extract_lets whole rest₁ fraction rest₂ power at h
  split at h
  · cases h
  · next hwhole =>
    split at h
    · split at h
      · cases h
      · next hlength =>
        simp only [Option.some.injEq, Except.ok.injEq, Prod.mk.injEq] at h
        rw [← h.1]
        have hdigits := digitsValue_lt fun c (hc : c ∈ whole) => isDigit_of_mem_wholeDigits hc
        have hpos : 0 < whole.length :=
          List.length_pos_iff.mpr fun hnil => hwhole (List.isEmpty_iff.mpr hnil)
        have habs : (if negative then -(digitsValue whole : Int)
            else (digitsValue whole : Int)).natAbs = digitsValue whole := by
          cases negative <;> simp
        apply Value.Legible.int
        rw [habs]
        exact ((Nat.length_toDigits_le_iff (by decide) hpos).mpr hdigits).trans
          (Nat.not_lt.mp hlength)
    · simp only [Option.some.injEq, Except.ok.injEq, Prod.mk.injEq] at h
      rw [← h.1]
      exact Value.legible_real _

theorem legible_of_scalar {s rest : List CodePoint} {v : Value} (h : scalar s = .ok (v, rest)) :
    v.Legible := by
  rw [scalar] at h
  split at h
  · next word hword =>
    have hwords : ∀ word ∈ words, word.2.Legible := by
      simp [words, Value.Legible.null, Value.Legible.bool, Value.legible_real]
    cases h
    exact hwords word (List.mem_of_find?_eq_some hword)
  · unfold number at h
    split at h
    all_goals
      rw [Option.getD_eq_iff] at h
      rcases h with h | h
      · exact legible_of_unsigned h
      · cases h.2

mutual

theorem legible_of_value {depth : Nat} {s rest : List CodePoint} {v : Value}
    (h : value depth s = .ok (v, rest)) : v.Legible := by
  match depth with
  | 0 =>
      rw [value] at h
      cases h
  | depth + 1 =>
      unfold value at h
      split at h
      · next rest' =>
        cases hbody : stringBody (.char '\x22' :: rest') [] rest' with
        | error stop => simp [hbody, Except.map] at h
        | ok read =>
            simp only [hbody, Except.map, Except.ok.injEq, Prod.mk.injEq] at h
            rw [← h.1]
            exact .string _
      · split at h
        · cases h
          exact .array (by simp)
        · exact legible_of_items (by simp) h
      · split at h
        · cases h
          exact .object (by simp [Entries.names]) (by simp)
        · exact legible_of_members (by simp) h
      · exact legible_of_scalar h

theorem legible_of_items {depth : Nat} {read : List Value} {s rest : List CodePoint} {v : Value}
    (hread : ∀ item ∈ read, item.Legible) (h : items depth read s = .ok (v, rest)) :
    v.Legible := by
  match depth with
  | 0 =>
      rw [items] at h
      cases h
  | depth + 1 =>
      rw [items] at h
      split at h
      · cases h
      · next item rest' hitem =>
        have hread' : ∀ item' ∈ item :: read, item'.Legible :=
          List.forall_mem_cons.mpr ⟨legible_of_value hitem, hread⟩
        split at h
        · cases h
          exact .array fun item hmem => hread' item (List.mem_reverse.mp hmem)
        · exact legible_of_items hread' h
        · cases h

theorem legible_of_members {depth : Nat} {read : List (Text × Value)} {s rest : List CodePoint}
    {v : Value} (hread : ∀ member ∈ read, member.2.Legible)
    (h : members depth read s = .ok (v, rest)) : v.Legible := by
  match depth with
  | 0 =>
      rw [members] at h
      cases h
  | depth + 1 =>
      unfold members at h
      split at h
      · split at h
        · cases h
        · next name rest' hname =>
          split at h
          · split at h
            · cases h
            · next member rest' hmember =>
              have hread' : ∀ member' ∈ (name, member) :: read, member'.2.Legible :=
                List.forall_mem_cons.mpr ⟨legible_of_value hmember, hread⟩
              split at h
              · cases h
                apply Value.Legible.object (Entries.nodup_names_ofPairs _)
                intro member hmem
                exact hread' member (List.mem_reverse.mp (Entries.mem_of_mem_ofPairs hmem))
              · exact legible_of_members hread' h
              · cases h
          · cases h
      · cases h

end

/-- Every value that is read is legible. -/
theorem legible_of_read {text : List CodePoint} {v : Value} (h : read text = .ok v) : v.Legible := by
  rw [read] at h
  cases hdocument : document text with
  | error stop => simp [hdocument, Except.mapError] at h
  | ok read =>
      rw [hdocument] at h
      cases h
      unfold document at hdocument
      split at hdocument
      · cases hdocument
      · split at hdocument
        · cases hdocument
        · next hvalue =>
          split at hdocument
          · cases hdocument
            exact legible_of_value hvalue
          · cases hdocument

theorem Value.Legible.distinct {v : Value} (h : v.Legible) : v.Distinct := by
  induction h with
  | null => exact .null
  | bool b => exact .bool b
  | int => exact .int _
  | real => exact .real _
  | string s => exact .string s
  | array _ ih => exact .array ih
  | object hnames _ ih => exact .object hnames ih

/-- Every value that is read has objects with distinct names. -/
theorem distinct_of_read {text : List CodePoint} {v : Value} (h : read text = .ok v) : v.Distinct :=
  (legible_of_read h).distinct

end RecordRegistry.Json
