import RecordRegistry.Proofs.Json.Number
import RecordRegistry.Proofs.Json.Text

/-!
# Lines are told apart

Values with one line differ at most in double-precision numbers that are written alike. The line of a
value ends where one of the characters stands that may follow it, so that no item or name can pass
for the punctuation around it.
-/

namespace RecordRegistry.Json

/-- The characters that may follow a value inside an array or object. -/
def isEnd (c : CodePoint) : Bool := c = .char ',' || c = .char ']' || c = .char '\x7d'

/-- A text that may follow a value. -/
def Ended (text : List CodePoint) : Prop := ∀ c ∈ text.head?, isEnd c = true

theorem ended_nil : Ended [] := by
  simp [Ended]

theorem ended_cons {c : CodePoint} (h : isEnd c = true) (text : List CodePoint) :
    Ended (c :: text) := by
  simpa [Ended] using h

/-- Texts without an end in them are told apart by the first one behind them. -/
theorem append_inj_of_ended {text line rest other : List CodePoint}
    (htext : ∀ c ∈ text, isEnd c = false) (hline : ∀ c ∈ line, isEnd c = false)
    (hrest : Ended rest) (hother : Ended other) (h : text ++ rest = line ++ other) :
    text = line ∧ rest = other := by
  induction text generalizing line with
  | nil =>
      cases line with
      | nil => exact ⟨rfl, h⟩
      | cons c line =>
          have hc := hrest c (by rw [← List.nil_append rest, h]; rfl)
          rw [hline c List.mem_cons_self] at hc
          cases hc
  | cons c text ih =>
      cases line with
      | nil =>
          have hc := hother c (by rw [← List.nil_append other, ← h]; rfl)
          rw [htext c List.mem_cons_self] at hc
          cases hc
      | cons d line =>
          have hcd := (List.cons.inj h).1
          subst hcd
          have htail := (List.cons.inj h).2
          rcases ih (fun c hc => htext c (List.mem_cons_of_mem _ hc))
            (fun c hc => hline c (List.mem_cons_of_mem _ hc)) htail with ⟨rfl, hrest⟩
          exact ⟨rfl, hrest⟩

theorem isEnd_of_isNumberMark {c : Char} (h : isNumberMark c = true) : isEnd c = false := by
  rw [← Bool.not_eq_true]
  intro hend
  simp only [isEnd, Bool.or_eq_true, decide_eq_true_eq, CodePoint.char.injEq] at hend
  rcases hend with (rfl | rfl) | rfl <;> exact absurd h (by decide)

theorem isEnd_of_mem_intText (n : Int) : ∀ c ∈ (intText n).map CodePoint.char, isEnd c = false := by
  rw [List.forall_mem_map]
  intro c hc
  exact isEnd_of_isNumberMark (isNumberMark_of_isWholeMark (isWholeMark_of_mem_intText hc))

theorem isEnd_of_mem_text (x : Double) :
    ∀ c ∈ (x.text layout).map CodePoint.char, isEnd c = false := by
  cases x with
  | finite negative rank =>
      rw [List.forall_mem_map]
      intro c hc
      rcases List.mem_append.mp hc with hc | hc
      · cases negative with
        | false => cases hc
        | true => exact isEnd_of_isNumberMark (by rw [List.mem_singleton.mp hc]; decide)
      · exact isEnd_of_isNumberMark (layout.isNumberMark_of_mem_magnitude rank c hc)
  | infinity negative => cases negative <;> decide
  | nan => decide

/-- What the first character of a line tells about its value. -/
inductive Kind where
  | null
  | bool (b : Bool)
  | number
  | string
  | array
  | object
deriving DecidableEq, Repr

/-- The kind of the values whose lines open with a code point. -/
def Kind.ofLead? : CodePoint → Option Kind
  | .surrogate _ => none
  | .char c =>
      if isNumberMark c || c = 'I' || c = 'N' then some number
      else match c with
        | 'n' => some null
        | 't' => some (bool true)
        | 'f' => some (bool false)
        | '\x22' => some string
        | '[' => some array
        | '\x7b' => some object
        | _ => none

theorem Kind.ofLead?_of_isNumberMark {c : Char} (h : isNumberMark c = true) :
    ofLead? c = some number := by
  simp [ofLead?, h]

theorem Kind.ofLead?_of_isEnd {c : CodePoint} (h : isEnd c = true) : ofLead? c = none := by
  simp only [isEnd, Bool.or_eq_true, decide_eq_true_eq] at h
  rcases h with (rfl | rfl) | rfl <;> rfl

theorem exists_lead_intText (n : Int) :
    ∃ c text, (intText n).map CodePoint.char = c :: text ∧ Kind.ofLead? c = some .number := by
  rcases List.exists_cons_of_ne_nil (intText_ne_nil n) with ⟨c, text, htext⟩
  have hc : c ∈ intText n := by simp [htext]
  exact ⟨c, text.map .char, by rw [htext, List.map_cons], Kind.ofLead?_of_isNumberMark
    (isNumberMark_of_isWholeMark (isWholeMark_of_mem_intText hc))⟩

theorem exists_lead_text (x : Double) :
    ∃ c text, (x.text layout).map CodePoint.char = c :: text ∧ Kind.ofLead? c = some .number := by
  cases x with
  | finite negative rank =>
      cases negative with
      | true => exact ⟨.char '-', _, rfl, by decide⟩
      | false =>
          rcases layout.exists_mem_magnitude rank with ⟨mark, hmark, _⟩
          rcases List.exists_cons_of_ne_nil (List.ne_nil_of_mem hmark) with ⟨c, text, htext⟩
          have hc : c ∈ layout.magnitude rank := by simp [htext]
          exact ⟨c, text.map .char, congrArg (List.map CodePoint.char) htext,
            Kind.ofLead?_of_isNumberMark (layout.isNumberMark_of_mem_magnitude rank c hc)⟩
  | infinity negative =>
      cases negative with
      | true => exact ⟨.char '-', _, rfl, by decide⟩
      | false => exact ⟨.char 'I', _, rfl, by decide⟩
  | nan => exact ⟨.char 'N', _, rfl, by decide⟩

namespace Value

/-- The kind of a value. -/
def kind : Value → Kind
  | null => .null
  | bool b => .bool b
  | int _ => .number
  | real _ => .number
  | string _ => .string
  | array _ => .array
  | object _ => .object

/-- A line opens with the mark of the kind of its value. -/
theorem exists_lead_compact (v : Value) :
    ∃ c text, v.compact = c :: text ∧ Kind.ofLead? c = some v.kind := by
  match v with
  | null => exact ⟨.char 'n', _, rfl, rfl⟩
  | bool true => exact ⟨.char 't', _, rfl, rfl⟩
  | bool false => exact ⟨.char 'f', _, rfl, rfl⟩
  | int n => exact exists_lead_intText n
  | real x => exact exists_lead_text x
  | string s => exact ⟨.char '\x22', _, rfl, rfl⟩
  | array [] => exact ⟨.char '[', _, rfl, rfl⟩
  | array (item :: items) => exact ⟨.char '[', _, rfl, rfl⟩
  | object [] => exact ⟨.char '\x7b', _, rfl, rfl⟩
  | object ((name, value) :: members) => exact ⟨.char '\x7b', _, rfl, rfl⟩

/-- Lines that begin alike are lines of values of one kind. -/
theorem kind_eq_of_compact_append {v w : Value} {rest other : List CodePoint}
    (h : v.compact ++ rest = w.compact ++ other) : v.kind = w.kind := by
  rcases exists_lead_compact v with ⟨c, text, hv, hkind⟩
  rcases exists_lead_compact w with ⟨d, line, hw, hkind'⟩
  rw [hv, hw] at h
  rw [(List.cons.inj h).1, hkind'] at hkind
  exact (Option.some.inj hkind).symm

/-- No line opens with a character that ends one. -/
theorem compact_append_ne_cons {c : CodePoint} (hc : isEnd c = true) (v : Value)
    (rest other : List CodePoint) : v.compact ++ rest ≠ c :: other := by
  intro h
  rcases exists_lead_compact v with ⟨d, text, hv, hkind⟩
  rw [hv] at h
  rw [(List.cons.inj h).1, Kind.ofLead?_of_isEnd hc] at hkind
  cases hkind

mutual

/-- Values that differ at most in double-precision numbers that are written alike. -/
def Alike : Value → Value → Prop
  | null, null => True
  | bool b, bool c => b = c
  | int n, int m => n = m
  | real x, real y => x.text layout = y.text layout
  | string s, string t => s = t
  | array items, array others => AlikeItems items others
  | object members, object others => AlikeMembers members others
  | _, _ => False

/-- Items alike one by one. -/
def AlikeItems : List Value → List Value → Prop
  | [], [] => True
  | item :: items, other :: others => Alike item other ∧ AlikeItems items others
  | _, _ => False

/-- Members of the same names, alike one by one. -/
def AlikeMembers : List (Text × Value) → List (Text × Value) → Prop
  | [], [] => True
  | (name, value) :: members, (name', value') :: others =>
      name = name' ∧ Alike value value' ∧ AlikeMembers members others
  | _, _ => False

end

theorem compact_array_cons_append (item : Value) (items : List Value) (rest : List CodePoint) :
    (array (item :: items)).compact ++ rest =
      .char '[' :: (item.compact ++ (compactItems items ++ rest)) := by
  rw [compact, List.cons_append, List.cons_append, List.append_assoc]

theorem compact_object_cons_append (name : Text) (value : Value)
    (members : List (Text × Value)) (rest : List CodePoint) :
    (object ((name, value) :: members)).compact ++ rest =
      .char '\x7b' :: (stringText name ++
        .char ':' :: (value.compact ++ (compactMembers members ++ rest))) := by
  rw [compact]
  simp

theorem compactItems_cons_append (item : Value) (items : List Value) (rest : List CodePoint) :
    compactItems (item :: items) ++ rest =
      .char ',' :: (item.compact ++ (compactItems items ++ rest)) := by
  rw [compactItems, List.cons_append, List.cons_append, List.append_assoc]

theorem compactMembers_cons_append (name : Text) (value : Value)
    (members : List (Text × Value)) (rest : List CodePoint) :
    compactMembers ((name, value) :: members) ++ rest =
      .char ',' ::
        (stringText name ++ .char ':' :: (value.compact ++ (compactMembers members ++ rest))) := by
  rw [compactMembers]
  simp

theorem ended_compactItems_append (items : List Value) (rest : List CodePoint) :
    Ended (compactItems items ++ rest) := by
  cases items with
  | nil => exact ended_cons (by decide) _
  | cons item items =>
      rw [compactItems_cons_append item items rest]
      exact ended_cons (by decide) _

theorem ended_compactMembers_append (members : List (Text × Value)) (rest : List CodePoint) :
    Ended (compactMembers members ++ rest) := by
  cases members with
  | nil => exact ended_cons (by decide) _
  | cons member members =>
      rw [compactMembers_cons_append member.1 member.2 members rest]
      exact ended_cons (by decide) _

mutual

/-- Lines in front of an end tell their values and where they stop. -/
theorem compact_append_inj (v w : Value) (rest other : List CodePoint) (hrest : Ended rest)
    (hother : Ended other) (h : v.compact ++ rest = w.compact ++ other) :
    Alike v w ∧ rest = other := by
  have hkind := kind_eq_of_compact_append h
  -- values of two kinds are out, and numbers are compared up to the end behind them
  match v, w with
  | null, null => exact ⟨trivial, List.append_cancel_left h⟩
  | bool b, bool c =>
      cases hkind
      exact ⟨rfl, List.append_cancel_left h⟩
  | int n, int m =>
      rcases append_inj_of_ended (isEnd_of_mem_intText n) (isEnd_of_mem_intText m)
        hrest hother h with ⟨htext, hrest⟩
      exact ⟨intText_inj (CodePoint.map_char_inj.mp htext), hrest⟩
  | int n, real y =>
      have htext := append_inj_of_ended (isEnd_of_mem_intText n) (isEnd_of_mem_text y)
        hrest hother h
      exact absurd (CodePoint.map_char_inj.mp htext.1) (intText_ne_text n y)
  | real x, int m =>
      have htext := append_inj_of_ended (isEnd_of_mem_text x) (isEnd_of_mem_intText m)
        hrest hother h
      exact absurd (CodePoint.map_char_inj.mp htext.1).symm (intText_ne_text m x)
  | real x, real y =>
      rcases append_inj_of_ended (isEnd_of_mem_text x) (isEnd_of_mem_text y)
        hrest hother h with ⟨htext, hrest⟩
      exact ⟨CodePoint.map_char_inj.mp htext, hrest⟩
  | string s, string t => exact stringText_append_inj h
  | array [], array [] => exact ⟨trivial, List.append_cancel_left h⟩
  | array [], array (item' :: others) =>
      rw [compact_array_cons_append item' others other] at h
      exact absurd (List.cons.inj h).2.symm (compact_append_ne_cons (by decide) item' _ _)
  | array (item :: items), array [] =>
      rw [compact_array_cons_append item items rest] at h
      exact absurd (List.cons.inj h).2 (compact_append_ne_cons (by decide) item _ _)
  | array (item :: items), array (item' :: others) =>
      rw [compact_array_cons_append item items rest,
        compact_array_cons_append item' others other] at h
      have hitems : compactItems (item :: items) ++ rest =
          compactItems (item' :: others) ++ other := by
        rw [compactItems_cons_append item items rest,
          compactItems_cons_append item' others other, (List.cons.inj h).2]
      exact compactItems_append_inj (item :: items) (item' :: others) rest other hitems
  | object [], object [] => exact ⟨trivial, List.append_cancel_left h⟩
  | object [], object ((name', value') :: others) =>
      rw [compact_object_cons_append name' value' others other, stringText_append] at h
      cases (List.cons.inj h).2
  | object ((name, value) :: members), object [] =>
      rw [compact_object_cons_append name value members rest, stringText_append] at h
      cases (List.cons.inj h).2
  | object ((name, value) :: members), object ((name', value') :: others) =>
      rw [compact_object_cons_append name value members rest,
        compact_object_cons_append name' value' others other] at h
      have hmembers : compactMembers ((name, value) :: members) ++ rest =
          compactMembers ((name', value') :: others) ++ other := by
        rw [compactMembers_cons_append name value members rest,
          compactMembers_cons_append name' value' others other, (List.cons.inj h).2]
      exact compactMembers_append_inj ((name, value) :: members) ((name', value') :: others)
        rest other hmembers

theorem compactItems_append_inj (items others : List Value) (rest other : List CodePoint)
    (h : compactItems items ++ rest = compactItems others ++ other) :
    AlikeItems items others ∧ rest = other := by
  match items, others with
  | [], [] => exact ⟨trivial, List.append_cancel_left h⟩
  | [], item' :: others =>
      rw [compactItems_cons_append item' others other] at h
      cases (List.cons.inj h).1
  | item :: items, [] =>
      rw [compactItems_cons_append item items rest] at h
      cases (List.cons.inj h).1
  | item :: items, item' :: others =>
      rw [compactItems_cons_append item items rest,
        compactItems_cons_append item' others other] at h
      rcases compact_append_inj item item' _ _ (ended_compactItems_append items rest)
        (ended_compactItems_append others other) (List.cons.inj h).2 with ⟨hitem, h⟩
      rcases compactItems_append_inj items others rest other h with ⟨hitems, hrest⟩
      exact ⟨⟨hitem, hitems⟩, hrest⟩

theorem compactMembers_append_inj (members others : List (Text × Value))
    (rest other : List CodePoint)
    (h : compactMembers members ++ rest = compactMembers others ++ other) :
    AlikeMembers members others ∧ rest = other := by
  match members, others with
  | [], [] => exact ⟨trivial, List.append_cancel_left h⟩
  | [], (name', value') :: others =>
      rw [compactMembers_cons_append name' value' others other] at h
      cases (List.cons.inj h).1
  | (name, value) :: members, [] =>
      rw [compactMembers_cons_append name value members rest] at h
      cases (List.cons.inj h).1
  | (name, value) :: members, (name', value') :: others =>
      rw [compactMembers_cons_append name value members rest,
        compactMembers_cons_append name' value' others other] at h
      rcases stringText_append_inj (List.cons.inj h).2 with ⟨hname, h⟩
      rcases compact_append_inj value value' _ _ (ended_compactMembers_append members rest)
        (ended_compactMembers_append others other) (List.cons.inj h).2 with ⟨hvalue, h⟩
      rcases compactMembers_append_inj members others rest other h with ⟨hmembers, hrest⟩
      exact ⟨⟨hname, hvalue, hmembers⟩, hrest⟩

end

mutual

/-- Values that are alike have one line. -/
theorem compact_eq_of_alike (v w : Value) (h : Alike v w) : v.compact = w.compact := by
  match v, w with
  | null, null => rfl
  | bool b, bool c => exact congrArg (fun b => (bool b).compact) h
  | int n, int m => exact congrArg (fun n => (intText n).map CodePoint.char) h
  | real x, real y => exact congrArg (List.map CodePoint.char) h
  | string s, string t => exact congrArg stringText h
  | array [], array [] => rfl
  | array (item :: items), array (item' :: others) =>
      rw [compact, compact, compact_eq_of_alike item item' h.1,
        compactItems_eq_of_alike items others h.2]
  | object [], object [] => rfl
  | object ((name, value) :: members), object ((name', value') :: others) =>
      rw [compact, compact, h.1, compact_eq_of_alike value value' h.2.1,
        compactMembers_eq_of_alike members others h.2.2]

theorem compactItems_eq_of_alike (items others : List Value) (h : AlikeItems items others) :
    compactItems items = compactItems others := by
  match items, others with
  | [], [] => rfl
  | item :: items, item' :: others =>
      rw [compactItems, compactItems, compact_eq_of_alike item item' h.1,
        compactItems_eq_of_alike items others h.2]

theorem compactMembers_eq_of_alike (members others : List (Text × Value))
    (h : AlikeMembers members others) : compactMembers members = compactMembers others := by
  match members, others with
  | [], [] => rfl
  | (name, value) :: members, (name', value') :: others =>
      rw [compactMembers, compactMembers, h.1, compact_eq_of_alike value value' h.2.1,
        compactMembers_eq_of_alike members others h.2.2]

end

/-- A line is that of values which are alike, and of no others. -/
theorem compact_eq_iff_alike (v w : Value) : v.compact = w.compact ↔ Alike v w := by
  constructor
  · intro h
    have hnil : v.compact ++ [] = w.compact ++ [] := by rw [h]
    exact (compact_append_inj v w [] [] ended_nil ended_nil hnil).1
  · exact compact_eq_of_alike v w

theorem canonical_eq_iff_alike_sorted (v w : Value) :
    v.canonical = w.canonical ↔ Alike v.sorted w.sorted := by
  rw [canonical, canonical, Text.ofList_inj, compact_eq_iff_alike]

end Value

end RecordRegistry.Json
