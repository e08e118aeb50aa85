import RecordRegistry.Proofs.Json.Numeral
import RecordRegistry.Proofs.Json.Same

/-!
# Lines are read back

The line of a value is read as the value itself, when its whole numbers are short enough for the
reader, its double-precision numbers are read back from their digits, and its objects have distinct
names. The reader looks at the text behind a value only to see where the value ends, so that what it
makes of a line is stated for every text behind it that ends a number.
-/

namespace RecordRegistry.Json

theorem Kind.ofLead?_of_isSpace {c : CodePoint} (h : isSpace c = true) : ofLead? c = none := by
  simp only [isSpace, Bool.or_eq_true, decide_eq_true_eq] at h
  rcases h with ((rfl | rfl) | rfl) | rfl <;> rfl

/-- No blanks stand before the line of a value. -/
theorem skipSpace_compact_append (v : Value) (rest : List CodePoint) :
    skipSpace (v.compact ++ rest) = v.compact ++ rest := by
  obtain ⟨c, text, hv, hkind⟩ := v.exists_lead_compact
  have hspace : ¬ isSpace c = true := by
    intro hspace
    rw [Kind.ofLead?_of_isSpace hspace] at hkind
    cases hkind
  rw [hv, List.cons_append, skipSpace, List.dropWhile_cons, if_neg hspace]

theorem skipSpace_cons {c : CodePoint} (h : isSpace c = false) (rest : List CodePoint) :
    skipSpace (c :: rest) = c :: rest := by
  rw [skipSpace, List.dropWhile_cons, h]
  rfl

theorem head?_toDigits_ne_zero {n : Nat} (h : 0 < n) : (Nat.toDigits 10 n).head? ≠ some '0' := by
  induction n using Nat.strongRecOn with
  | ind n ih =>
      rw [Nat.toDigits_eq_if (by decide)]
      split
      · next hn =>
        have hdigit : ∀ n < 10, 0 < n → Nat.digitChar n ≠ '0' := by decide
        simpa using hdigit n hn h
      · next hn =>
        have hne : Nat.toDigits 10 (n / 10) ≠ [] := Nat.toDigits_ne_nil
        rw [List.head?_append_of_ne_nil _ hne]
        exact ih (n / 10) (by omega) (by omega)

/-- The digits of a whole number are read up to an end. -/
theorem wholeDigits_toDigits_append (n : Nat) {rest : List CodePoint} (hrest : Ended rest) :
    wholeDigits ((Nat.toDigits 10 n).map .char ++ rest) = (Nat.toDigits 10 n).map .char := by
  apply wholeDigits_append Nat.toDigits_ne_nil (fun c hc => isDigit_of_mem_toDigits hc) _
    hrest.undigited
  intro hzero
  rcases Nat.eq_zero_or_pos n with rfl | hn
  · rfl
  · exact absurd hzero (head?_toDigits_ne_zero hn)

theorem unsigned_toDigits_append (negative : Bool) {n : Nat} {rest : List CodePoint}
    (hlength : (Nat.toDigits 10 n).length ≤ digitLimit) (hrest : Ended rest) :
    unsigned negative ((Nat.toDigits 10 n).map .char ++ rest) =
      some (.ok (.int (if negative then -n else n), rest)) := by
  have hne : ((Nat.toDigits 10 n).map CodePoint.char).isEmpty = false := by simp
  simp only [unsigned, wholeDigits_toDigits_append n hrest, hne, List.drop_left,
    fractionDigits_of_ended hrest]
  simp [powerOfTen?_of_ended hrest, Nat.not_lt.mpr hlength, Nat.ofDigitChars_ten_toDigits]

/-- A whole number of not too many digits is read back from its text. -/
theorem scalar_intText_append {n : Int} {rest : List CodePoint}
    (hlength : (Nat.toDigits 10 n.natAbs).length ≤ digitLimit) (hrest : Ended rest) :
    scalar ((intText n).map .char ++ rest) = .ok (.int n, rest) := by
  have hnumber := unsigned_toDigits_append (decide (n < 0)) hlength hrest
  obtain ⟨c, text, htext⟩ :=
    List.exists_cons_of_ne_nil (Nat.toDigits_ne_nil (b := 10) (n := n.natAbs))
  have hc : c.isDigit = true := isDigit_of_mem_toDigits (n := n.natAbs) (by simp [htext])
  have hsign : (if decide (n < 0) = true then -(n.natAbs : Int) else n.natAbs) = n := by
    simp only [decide_eq_true_eq]
    omega
  rw [htext, hsign] at hnumber
  have hread := scalar_of_unsigned hc hnumber
  rw [intText, htext, List.map_append, map_char_minus, List.append_assoc]
  exact hread

/-- A value that is read back from its line: names are distinct in every object, and the numbers are
such that the reader takes their texts for them. -/
inductive Value.Legible : Value → Prop
  | null : Legible null
  | bool (b : Bool) : Legible (bool b)
  | int {n : Int} (hlength : (Nat.toDigits 10 n.natAbs).length ≤ digitLimit) : Legible (int n)
  | real {x : Double}
      (hread : ∀ rest, Ended rest →
        scalar ((x.text layout).map .char ++ rest) = .ok (.real x, rest)) :
      Legible (real x)
  | string (s : Text) : Legible (string s)
  | array {items : List Value} (hitems : ∀ item ∈ items, Legible item) : Legible (array items)
  | object {members : List (Text × Value)} (hnames : (Entries.names members).Nodup)
      (hmembers : ∀ member ∈ members, Legible member.2) : Legible (object members)

theorem Value.legible_ofTexts (texts : List Text) : (ofTexts texts).Legible := by
  apply Legible.array
  intro item hitem
  obtain ⟨s, -, rfl⟩ := List.mem_map.mp hitem
  exact .string s

theorem Value.legible_ofText? (text : Option Text) : (ofText? text).Legible := by
  cases text with
  | none => exact .null
  | some s => exact .string s

theorem Value.legible_pair {name name' : Text} (hne : name ≠ name') {v w : Value}
    (hv : v.Legible) (hw : w.Legible) : (object [(name, v), (name', w)]).Legible := by
  apply Legible.object
  · simp [Entries.names, hne]
  · simp [hv, hw]

/-- A value is read up to an end, at any depth that its line can need. -/
def Value.ReadsBack (v : Value) : Prop :=
  ∀ (depth : Nat) (rest : List CodePoint), 2 * v.compact.length ≤ depth → Ended rest →
    value depth (v.compact ++ rest) = .ok (v, rest)

theorem length_compact_pos (v : Value) : 0 < v.compact.length := by
  obtain ⟨c, text, hv, _⟩ := v.exists_lead_compact
  simp [hv]

theorem length_compactItems_pos (items : List Value) : 0 < (Value.compactItems items).length := by
  cases items <;> simp [Value.compactItems]

theorem value_of_scalar {v : Value} (hstring : v.kind ≠ .string) (harray : v.kind ≠ .array)
    (hobject : v.kind ≠ .object) (depth : Nat) (rest : List CodePoint) :
    value (depth + 1) (v.compact ++ rest) = scalar (v.compact ++ rest) := by
  obtain ⟨c, text, hv, hlead⟩ := v.exists_lead_compact
  have hne {d : CodePoint} {kind : Kind} (hd : Kind.ofLead? d = some kind) (hkind : v.kind ≠ kind)
      (tail : List CodePoint) : v.compact ++ rest ≠ d :: tail := by
    intro h
    rw [hv] at h
    rw [(List.cons.inj h).1, hd] at hlead
    exact hkind (Option.some.inj hlead).symm
  unfold value
  split
  · next heq => exact absurd heq (hne rfl hstring _)
  · next heq => exact absurd heq (hne rfl harray _)
  · next heq => exact absurd heq (hne rfl hobject _)
  · rfl

theorem value_array_cons (depth : Nat) (item : Value) (rest : List CodePoint) :
    value (depth + 1) (.char '[' :: (item.compact ++ rest)) =
      items depth [] (item.compact ++ rest) := by
  rw [value, skipSpace_compact_append item rest]
  split
  · next heq => exact absurd heq (Value.compact_append_ne_cons (by decide) item rest _)
  · rfl

theorem value_object_cons (depth : Nat) (name : Text) (rest : List CodePoint) :
    value (depth + 1) (.char '\x7b' :: (stringText name ++ rest)) =
      members depth [] (stringText name ++ rest) := by
  rw [stringText_append]
  rfl

theorem items_close {depth : Nat} {s rest : List CodePoint} {item : Value} (read : List Value)
    (h : value depth s = .ok (item, .char ']' :: rest)) :
    items (depth + 1) read s = .ok (.array (item :: read).reverse, rest) := by
  rw [items, h]
  rfl

theorem items_comma {depth : Nat} {s rest : List CodePoint} {item : Value} (read : List Value)
    (h : value depth s = .ok (item, .char ',' :: rest)) :
    items (depth + 1) read s = items depth (item :: read) (skipSpace rest) := by
  rw [items, h]
  rfl

/-- A written name is read up to the colon behind it. -/
theorem stringBody_stringText (opening : List CodePoint) (name : Text) (rest : List CodePoint) :
    stringBody opening [] (name.toList.flatMap escape ++ .char '\x22' :: rest) =
      .ok (name, rest) := by
  have hname := stringBody_escapes opening [] name.toList rest
  simpa using hname

theorem members_close {depth : Nat} {s rest : List CodePoint} {member : Value} (name : Text)
    (read : List (Text × Value))
    (h : value depth (skipSpace s) = .ok (member, .char '\x7d' :: rest)) :
    members (depth + 1) read (stringText name ++ .char ':' :: s) =
      .ok (.object (Entries.ofPairs ((name, member) :: read).reverse), rest) := by
  rw [stringText_append, members, stringBody_stringText]
  simp only [skipSpace_cons (c := .char ':') rfl, h, skipSpace_cons (c := .char '\x7d') rfl]

theorem members_comma {depth : Nat} {s rest : List CodePoint} {member : Value} (name : Text)
    (read : List (Text × Value)) (h : value depth (skipSpace s) = .ok (member, .char ',' :: rest)) :
    members (depth + 1) read (stringText name ++ .char ':' :: s) =
      members depth ((name, member) :: read) (skipSpace rest) := by
  rw [stringText_append, members, stringBody_stringText]
  simp only [skipSpace_cons (c := .char ':') rfl, h, skipSpace_cons (c := .char ',') rfl]

/-- Items are read up to the end of their array. Every one of them takes one of the depth and at
least one character of the line. -/
theorem items_compactItems_append {item : Value} {others : List Value}
    (hitems : ∀ v ∈ item :: others, v.ReadsBack) (read : List Value) (depth : Nat)
    (rest : List CodePoint)
    (hdepth : 2 * (item.compact.length + (Value.compactItems others).length) ≤ depth) :
    items depth read (item.compact ++ (Value.compactItems others ++ rest)) =
      .ok (.array (read.reverse ++ item :: others), rest) := by
  induction others generalizing item read depth with
  | nil =>
      rcases depth with _ | depth
      · have hpos := length_compact_pos item
        omega
      · have hpos := length_compactItems_pos []
        have hitem := hitems item List.mem_cons_self depth (Value.compactItems [] ++ rest)
          (by omega) (Value.ended_compactItems_append [] rest)
        rw [items_close read hitem, List.reverse_cons]
        rfl
  | cons other others ih =>
      rcases depth with _ | depth
      · have hpos := length_compact_pos item
        omega
      · have hlength : (Value.compactItems (other :: others)).length =
            other.compact.length + (Value.compactItems others).length + 1 := by
          simp [Value.compactItems]
        have hended := Value.ended_compactItems_append (other :: others) rest
        have hitem := hitems item List.mem_cons_self depth _ (by omega) hended
        have hothers := ih (fun v hv => hitems v (List.mem_cons_of_mem _ hv)) (item :: read) depth
          (by omega)
        rw [Value.compactItems_cons_append] at hitem ⊢
        rw [items_comma read hitem, skipSpace_compact_append, hothers, List.reverse_cons,
          List.append_assoc]
        rfl

theorem length_stringText_pos (s : Text) : 0 < (stringText s).length := by
  simp [stringText]

/-- Members are read up to the end of their object, as items are. -/
theorem members_compactMembers_append {name : Text} {member : Value}
    {others : List (Text × Value)} (hmember : member.ReadsBack)
    (hothers : ∀ other ∈ others, other.2.ReadsBack) (read : List (Text × Value)) (depth : Nat)
    (rest : List CodePoint)
    (hdepth : 2 * ((stringText name).length + member.compact.length +
      (Value.compactMembers others).length) ≤ depth) :
    members depth read
        (stringText name ++
          .char ':' :: (member.compact ++ (Value.compactMembers others ++ rest))) =
      .ok (.object (Entries.ofPairs (read.reverse ++ (name, member) :: others)), rest) := by
  have hname := length_stringText_pos name
  induction others generalizing name member read depth with
  | nil =>
      rcases depth with _ | depth
      · omega
      · have hvalue := hmember depth (Value.compactMembers [] ++ rest) (by omega)
          (Value.ended_compactMembers_append [] rest)
        rw [← skipSpace_compact_append] at hvalue
        rw [members_close name read hvalue, List.reverse_cons]
        rfl
  | cons other others ih =>
      rcases depth with _ | depth
      · omega
      · have hlength : (Value.compactMembers (other :: others)).length =
            (stringText other.1).length + other.2.compact.length +
              (Value.compactMembers others).length + 2 := by
          simp only [Value.compactMembers, List.length_cons, List.length_append]
          omega
        have hvalue := hmember depth _ (by omega)
          (Value.ended_compactMembers_append (other :: others) rest)
        have hrest := ih (hothers other List.mem_cons_self)
          (fun v hv => hothers v (List.mem_cons_of_mem _ hv)) ((name, member) :: read) depth
          (by omega) (length_stringText_pos other.1)
        rw [← skipSpace_compact_append, Value.compactMembers_cons_append] at hvalue
        rw [Value.compactMembers_cons_append, members_comma name read hvalue,
          stringText_append, skipSpace_cons rfl, ← stringText_append, hrest, List.reverse_cons,
          List.append_assoc]
        rfl

theorem readsBack_of_scalar {v : Value} (hstring : v.kind ≠ .string) (harray : v.kind ≠ .array)
    (hobject : v.kind ≠ .object)
    (h : ∀ rest, Ended rest → scalar (v.compact ++ rest) = .ok (v, rest)) : v.ReadsBack := by
  intro depth rest hdepth hrest
  have hpos := length_compact_pos v
  rcases depth with _ | depth
  · omega
  · rw [value_of_scalar hstring harray hobject depth rest, h rest hrest]

/-- Every legible value is read back, whatever ends its line. -/
theorem Value.Legible.readsBack {v : Value} (h : v.Legible) : v.ReadsBack := by
  induction v using Value.inductionOn with
  | null => exact readsBack_of_scalar nofun nofun nofun fun rest _ => rfl
  | bool b =>
      cases b
      all_goals exact readsBack_of_scalar nofun nofun nofun fun rest _ => rfl
  | int n =>
      cases h with
      | int hlength =>
          have hread : ∀ rest, Ended rest →
              scalar ((intText n).map .char ++ rest) = .ok (.int n, rest) :=
            fun rest hrest => scalar_intText_append hlength hrest
          exact readsBack_of_scalar (v := .int n) nofun nofun nofun hread
  | real x =>
      cases h with
      | real hread =>
          exact readsBack_of_scalar (v := .real x) nofun nofun nofun hread
  | string s =>
      intro depth rest hdepth hrest
      have hpos := length_compact_pos (Value.string s)
      rcases depth with _ | depth
      · omega
      · rw [Value.compact, stringText_append, value, stringBody_stringText]
        rfl
  | array items ih =>
      cases h with
      | array hitems =>
          intro depth rest hdepth hrest
          have hpos := length_compact_pos (Value.array items)
          rcases depth with _ | depth
          · omega
          · cases items with
            | nil => rfl
            | cons item others =>
                have hlength : (Value.array (item :: others)).compact.length =
                    item.compact.length + (Value.compactItems others).length + 1 := by
                  simp [Value.compact]
                rw [Value.compact_array_cons_append, value_array_cons]
                exact items_compactItems_append (fun v hv => ih v hv (hitems v hv)) [] depth rest
                  (by omega)
  | object members ih =>
      cases h with
      | object hnames hmembers =>
          intro depth rest hdepth hrest
          have hpos := length_compact_pos (Value.object members)
          rcases depth with _ | depth
          · omega
          · rcases members with _ | ⟨⟨name, member⟩, others⟩
            · rfl
            · have hlength : (Value.object ((name, member) :: others)).compact.length =
                  (stringText name).length + member.compact.length +
                    (Value.compactMembers others).length + 2 := by
                simp only [Value.compact, List.length_cons, List.length_append]
                omega
              have hmember : member.ReadsBack :=
                ih (name, member) List.mem_cons_self (hmembers _ List.mem_cons_self)
              have hothers : ∀ other ∈ others, other.2.ReadsBack := fun other hother =>
                ih other (List.mem_cons_of_mem _ hother)
                  (hmembers other (List.mem_cons_of_mem _ hother))
              rw [Value.compact_object_cons_append, value_object_cons,
                members_compactMembers_append hmember hothers [] depth rest (by omega),
                List.reverse_nil, List.nil_append, Entries.ofPairs_of_nodup hnames]

/-- A legible value is what is read from its line. -/
theorem read_compact {v : Value} (h : v.Legible) : read v.compact = .ok v := by
  have hvalue := h.readsBack (2 * v.compact.length + 2) [] (by omega) ended_nil
  have hskip := skipSpace_compact_append v []
  rw [List.append_nil] at hvalue hskip
  rw [read]
  unfold document
  split
  · next tail heq =>
    obtain ⟨c, text, hv, hlead⟩ := v.exists_lead_compact
    rw [hv] at heq
    rw [(List.cons.inj heq).1] at hlead
    cases hlead
  · rw [hskip, hvalue]
    rfl

theorem Value.Legible.sorted {v : Value} (h : v.Legible) : v.sorted.Legible := by
  induction v using Value.inductionOn with
  | null | bool | int | real | string => exact h
  | array items ih =>
      cases h with
      | array hitems =>
          rw [Value.sorted, sortedItems_map]
          apply Value.Legible.array
          intro item hitem
          obtain ⟨old, hold, rfl⟩ := List.mem_map.mp hitem
          exact ih old hold (hitems old hold)
  | object members ih =>
      cases h with
      | object hnames hmembers =>
          rw [Value.sorted, sortedMembers_map]
          apply Value.Legible.object
          · rw [Entries.names, ((List.mergeSort_perm _ _).map _).nodup_iff, List.map_map]
            exact hnames
          · intro member hmember
            obtain ⟨old, hold, rfl⟩ := List.mem_map.mp (List.mem_mergeSort.mp hmember)
            exact ih old hold (hmembers old hold)

/-- What is read from the canonical text of a legible value is the value with its members in the
order of their names. -/
theorem read_canonical {v : Value} (h : v.Legible) : read v.canonical.toList = .ok v.sorted := by
  rw [Value.canonical, Text.toList_ofList]
  exact read_compact h.sorted

end RecordRegistry.Json
