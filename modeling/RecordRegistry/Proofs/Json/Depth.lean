import RecordRegistry.Json.Reader

/-!
# The depth of a text

Every value that is read leaves a shorter text, so that a whole text never takes more depth than the
reader starts with: whatever is refused is refused for a fault in the text.
-/

namespace RecordRegistry.Json

/-- A reader leaves a shorter text, or runs out of depth only where the depth is within `room`. -/
def GetsOn {α : Type} (depth room : Nat) (s : List CodePoint)
    (result : Except Stop (α × List CodePoint)) :
    Prop :=
  match result with
  | .ok read => read.2.length < s.length
  | .error stop => stop = .tooDeep → depth ≤ room

variable {α : Type} {depth room : Nat} {s rest : List CodePoint}
variable {result : Except Stop (α × List CodePoint)}

/-- What gets on in the rest of a text gets on in the text, with as much more depth as it has more
room. -/
theorem GetsOn.of_rest {depth' room' : Nat} (h : GetsOn depth room rest result)
    (hrest : rest.length ≤ s.length) (hroom : depth ≤ room → depth' ≤ room') :
    GetsOn depth' room' s result := by
  cases result with
  | ok read => exact Nat.lt_of_lt_of_le h hrest
  | error stop => exact fun hstop => hroom (h hstop)

theorem GetsOn.map {β : Type} (h : GetsOn depth room s result) (f : α → β) :
    GetsOn depth room s (result.map fun read => (f read.1, read.2)) := by
  cases result with
  | ok read => exact h
  | error stop => exact h

theorem length_skipSpace_le (s : List CodePoint) : (skipSpace s).length ≤ s.length :=
  (List.dropWhile_sublist _).length_le

/-- What follows the next mark is shorter than the text in front of it. -/
theorem length_lt_of_skipSpace {c : CodePoint} (h : skipSpace s = c :: rest) :
    rest.length < s.length := by
  have hlength := length_skipSpace_le s
  rw [h, List.length_cons] at hlength
  exact hlength

theorem getsOn_stringBody (opening : List CodePoint) (read : List Piece) (s : List CodePoint) :
    GetsOn depth room s (stringBody opening read s) := by
  have hlonger {c : CodePoint} {s : List CodePoint} {result : Except Stop (Text × List CodePoint)}
      (h : GetsOn depth room s result) : GetsOn depth room (c :: s) result :=
    h.of_rest (Nat.le_succ _) id
  fun_induction stringBody opening read s with
  | case2 => exact Nat.lt_succ_self _
  | case5 => next ih => exact hlonger (hlonger (hlonger (hlonger (hlonger (hlonger ih)))))
  | case7 => next ih => exact hlonger (hlonger ih)
  | case10 => next ih => exact hlonger ih
  | _ => exact nofun

theorem length_wholeDigits_le (s : List CodePoint) : (wholeDigits s).length ≤ s.length := by
  unfold wholeDigits
  split
  · exact Nat.succ_le_succ (Nat.zero_le _)
  · exact (List.takeWhile_sublist _).length_le

theorem getsOn_unsigned {negative : Bool} {result : Except Stop (Value × List CodePoint)}
    (h : unsigned negative s = some result) : GetsOn depth room s result := by
  unfold unsigned at h
  extract_lets whole rest fraction rest' power at h
  have hrest' : rest'.length ≤ rest.length := by
    rw [show rest' = if fraction.isEmpty then rest else rest.drop (fraction.length + 1) from rfl]
    split
    · exact Nat.le_refl _
    · exact (List.drop_sublist _ _).length_le
  split at h
  · cases h
  · next hwhole =>
    have hrest : rest.length < s.length := by
      have hle : whole.length ≤ s.length := length_wholeDigits_le s
      have hpos := List.length_pos_iff.mpr fun h => hwhole (List.isEmpty_iff.mpr h)
      rw [List.length_drop]
      omega
    split at h
    · split at h
      · cases h
        exact nofun
      · cases h
        exact Nat.lt_of_le_of_lt hrest' hrest
    · cases h
      exact Nat.lt_of_le_of_lt (Nat.le_trans (List.drop_sublist _ _).length_le hrest') hrest

theorem getsOn_number (s : List CodePoint) : GetsOn depth room s (number s) := by
  unfold number
  extract_lets result
  have hresult : ∀ read ∈ result, GetsOn depth room s read := by
    intro read hread
    simp only [result] at hread
    split at hread
    · exact (getsOn_unsigned hread).of_rest (Nat.le_succ _) id
    · exact getsOn_unsigned hread
  cases hread : result with
  | none => simp [GetsOn]
  | some read => exact hresult read hread

theorem getsOn_scalar (s : List CodePoint) : GetsOn depth room s (scalar s) := by
  rw [scalar]
  split
  · next word hword =>
    have hwords : ∀ word ∈ words, 0 < word.1.length := by decide
    have hstart := List.find?_some hword
    have hprefix : word.1 <+: s := List.isPrefixOf_iff_prefix.mp hstart
    have hpos := hwords word (List.mem_of_find?_eq_some hword)
    have hle := hprefix.length_le
    rw [GetsOn, List.length_drop]
    omega
  · exact getsOn_number s

mutual

/-- An array or object takes a depth for itself and one for each item or member. -/
theorem getsOn_value (depth : Nat) (s : List CodePoint) :
    GetsOn depth (2 * s.length) s (value depth s) := by
  match depth with
  | 0 => exact fun _ => Nat.zero_le _
  | depth + 1 =>
      unfold value
      split
      · next rest =>
        exact ((getsOn_stringBody _ [] rest).of_rest (Nat.le_succ _) id).map Value.string
      · next rest =>
        split
        · next hmark => exact Nat.lt_succ_of_lt (length_lt_of_skipSpace hmark)
        · have hlength := length_skipSpace_le rest
          refine (getsOn_items depth [] (skipSpace rest)).of_rest (by simp; omega) ?_
          rw [List.length_cons]
          omega
      · next rest =>
        split
        · next hmark => exact Nat.lt_succ_of_lt (length_lt_of_skipSpace hmark)
        · have hlength := length_skipSpace_le rest
          refine (getsOn_members depth [] (skipSpace rest)).of_rest (by simp; omega) ?_
          rw [List.length_cons]
          omega
      · exact getsOn_scalar _

theorem getsOn_items (depth : Nat) (read : List Value) (s : List CodePoint) :
    GetsOn depth (2 * s.length + 1) s (items depth read s) := by
  match depth with
  | 0 => exact fun _ => Nat.zero_le _
  | depth + 1 =>
      have hitem := getsOn_value depth s
      rw [items]
      split
      · next stop hstop =>
        rw [hstop] at hitem
        exact fun h => Nat.succ_le_succ (hitem h)
      · next item rest hrest =>
        rw [hrest] at hitem
        split
        · next hmark => exact Nat.lt_trans (length_lt_of_skipSpace hmark) hitem
        · next others hmark =>
          have hothers := Nat.lt_trans (length_lt_of_skipSpace hmark) hitem
          have hlength := length_skipSpace_le others
          exact (getsOn_items depth _ (skipSpace others)).of_rest (by omega) (by omega)
        · exact nofun

theorem getsOn_members (depth : Nat) (read : List (Text × Value)) (s : List CodePoint) :
    GetsOn depth (2 * s.length + 1) s (members depth read s) := by
  match depth with
  | 0 => exact fun _ => Nat.zero_le _
  | depth + 1 =>
      unfold members
      split
      · next s =>
        split
        · next stop hstop =>
          have hname : GetsOn 1 0 s (.error stop) := hstop ▸ getsOn_stringBody _ [] s
          exact fun h => absurd (hname h) (by decide)
        · next name rest hrest =>
          have hname : GetsOn 0 0 s (.ok (name, rest)) := hrest ▸ getsOn_stringBody _ [] s
          split
          · next rest hcolon =>
            have hmember := getsOn_value depth (skipSpace rest)
            have hstart := Nat.lt_trans (length_lt_of_skipSpace hcolon) hname
            have hskip := length_skipSpace_le rest
            rw [List.length_cons]
            split
            · next stop hstop =>
              rw [hstop] at hmember
              exact fun h => by have hdepth := hmember h; omega
            · next member rest hrest =>
              rw [hrest] at hmember
              split
              · next rest hmark =>
                have hlength := Nat.lt_trans (length_lt_of_skipSpace hmark) hmember
                have hrest : rest.length < s.length := by omega
                exact Nat.lt_succ_of_lt hrest
              · next others hmark =>
                have hothers := Nat.lt_trans (length_lt_of_skipSpace hmark) hmember
                have hlength := length_skipSpace_le others
                refine (getsOn_members depth _ (skipSpace others)).of_rest ?_ (by omega)
                rw [List.length_cons]
                omega
              · exact nofun
          · exact nofun
      · exact nofun

end

theorem document_ne_tooDeep (s : List CodePoint) : document s ≠ .error .tooDeep := by
  have hvalue := getsOn_value (2 * s.length + 2) (skipSpace s)
  have hskip := length_skipSpace_le s
  unfold document
  split
  · nofun
  · split
    · next stop hstop =>
      rw [hstop] at hvalue
      intro h
      have hdepth := hvalue (Except.error.inj h)
      omega
    · split <;> nofun

/-- A whole text is never refused for its depth. -/
theorem read_ne_tooDeep (text : List CodePoint) : read text ≠ .error .tooDeep := by
  rw [read]
  cases hdocument : document text with
  | ok v => nofun
  | error stop =>
      cases stop with
      | fault fault rest => nofun
      | tooManyDigits count => nofun
      | tooDeep => exact absurd hdocument (document_ne_tooDeep text)

end RecordRegistry.Json
