import RecordRegistry.Json.Printer
import RecordRegistry.Proofs.Text.Surrogates
import Mathlib.Tactic.SplitIfs

/-!
# Surrogates in JSON text

The printer escapes no surrogate, and writes none that is not in the value. So the canonical text of
a value has bytes exactly when none of its strings and of the names of its members holds one.
-/

namespace RecordRegistry.Json

/-- What is written for a code point holds a surrogate only where that is one. -/
theorem isSurrogate_escape (c : CodePoint) :
    (∀ d ∈ escape c, d.isSurrogate = false) ↔ c.isSurrogate = false := by
  cases c with
  | char c =>
      have hchars : ∀ d ∈ escape (.char c), d.isSurrogate = false := by
        rw [escape]
        split_ifs <;> simp
        -- a control character is written with the digits of its number
        exact CodePoint.isSurrogate_map_char _
      exact iff_of_true hchars rfl
  | surrogate s =>
      have hcode : ¬ s.code < 0x20 := Nat.not_lt.mpr (Nat.le_trans (by decide) s.le_code)
      simp [escape, CodePoint.toNat, hcode]

theorem isSurrogate_stringText (s : Text) :
    (∀ c ∈ stringText s, c.isSurrogate = false) ↔ s.SurrogateFree := by
  simp only [stringText, List.cons_append, List.forall_mem_cons, List.forall_mem_append,
    List.mem_flatMap, forall_exists_index, and_imp, List.not_mem_nil, false_imp_iff, imp_true_iff,
    and_true, CodePoint.isSurrogate_char, true_and]
  constructor
  · intro h c hc
    exact (isSurrogate_escape c).mp fun d hd => h d c hc hd
  · intro h d c hc hd
    exact (isSurrogate_escape c).mpr (h c hc) d hd

namespace Value

mutual

/-- The strings in a value and the names of its members, in the order of its text. -/
def texts : Value → List Text
  | string s => [s]
  | array items => textsItems items
  | object members => textsMembers members
  | _ => []

/-- The texts in the items of an array. -/
def textsItems : List Value → List Text
  | [] => []
  | item :: items => texts item ++ textsItems items

/-- The texts in the members of an object. -/
def textsMembers : List (Text × Value) → List Text
  | [] => []
  | (name, value) :: members => name :: texts value ++ textsMembers members

end

theorem textsItems_eq_flatMap (items : List Value) : textsItems items = items.flatMap texts := by
  induction items with
  | nil => rfl
  | cons item items ih => rw [textsItems, ih, List.flatMap_cons]

theorem textsMembers_eq_flatMap (members : List (Text × Value)) :
    textsMembers members = members.flatMap fun member => member.1 :: member.2.texts := by
  induction members with
  | nil => rfl
  | cons member members ih => rw [textsMembers, ih, List.flatMap_cons]

mutual

/-- A line holds the surrogates of the texts in its value and no others. -/
theorem isSurrogate_compact (v : Value) :
    (∀ c ∈ v.compact, c.isSurrogate = false) ↔ ∀ s ∈ v.texts, s.SurrogateFree := by
  match v with
  | null | bool true | bool false | array [] | object [] =>
      simp [compact, texts, textsItems, textsMembers]
  | int n => exact iff_of_true (CodePoint.isSurrogate_map_char _) (by simp [texts])
  | real x => exact iff_of_true (CodePoint.isSurrogate_map_char _) (by simp [texts])
  | string s => simpa [texts, compact] using isSurrogate_stringText s
  | array (item :: items) =>
      rw [compact, texts, textsItems, List.cons_append, List.forall_mem_cons,
        List.forall_mem_append, List.forall_mem_append, isSurrogate_compact item,
        isSurrogate_compactItems items]
      exact and_iff_right rfl
  | object ((name, value) :: members) =>
      rw [compact, texts, textsMembers]
      simp only [List.cons_append, List.forall_mem_cons, List.forall_mem_append, List.append_assoc,
        isSurrogate_stringText name, isSurrogate_compact value, isSurrogate_compactMembers members,
        CodePoint.isSurrogate_char, true_and]

theorem isSurrogate_compactItems (items : List Value) :
    (∀ c ∈ compactItems items, c.isSurrogate = false) ↔
      ∀ s ∈ textsItems items, s.SurrogateFree := by
  match items with
  | [] => simp [compactItems, textsItems]
  | item :: items =>
      rw [compactItems, textsItems, List.cons_append, List.forall_mem_cons,
        List.forall_mem_append, List.forall_mem_append, isSurrogate_compact item,
        isSurrogate_compactItems items]
      exact and_iff_right rfl

theorem isSurrogate_compactMembers (members : List (Text × Value)) :
    (∀ c ∈ compactMembers members, c.isSurrogate = false) ↔
      ∀ s ∈ textsMembers members, s.SurrogateFree := by
  match members with
  | [] => simp [compactMembers, textsMembers]
  | (name, value) :: members =>
      rw [compactMembers, textsMembers]
      simp only [List.cons_append, List.forall_mem_cons, List.forall_mem_append, List.append_assoc,
        isSurrogate_stringText name, isSurrogate_compact value, isSurrogate_compactMembers members,
        CodePoint.isSurrogate_char, true_and]

end

mutual

/-- The order of members has no effect on which texts there are. -/
theorem mem_texts_sorted (v : Value) (s : Text) : s ∈ v.sorted.texts ↔ s ∈ v.texts := by
  match v with
  | null | bool _ | int _ | real _ | string _ => simp [sorted]
  | array items =>
      rw [sorted, texts, texts]
      exact mem_textsItems_sorted items s
  | object members =>
      rw [sorted, texts, texts, textsMembers_eq_flatMap, ← mem_textsMembers_sorted members s,
        textsMembers_eq_flatMap]
      simp only [List.mem_flatMap, List.mem_mergeSort]

theorem mem_textsItems_sorted (items : List Value) (s : Text) :
    s ∈ textsItems (sortedItems items) ↔ s ∈ textsItems items := by
  match items with
  | [] => rw [sortedItems]
  | item :: items =>
      rw [sortedItems, textsItems, textsItems, List.mem_append, List.mem_append,
        mem_texts_sorted item s, mem_textsItems_sorted items s]

theorem mem_textsMembers_sorted (members : List (Text × Value)) (s : Text) :
    s ∈ textsMembers (sortedMembers members) ↔ s ∈ textsMembers members := by
  match members with
  | [] => rw [sortedMembers]
  | (name, value) :: members =>
      rw [sortedMembers, textsMembers, textsMembers, List.cons_append, List.cons_append,
        List.mem_cons, List.mem_cons, List.mem_append, List.mem_append, mem_texts_sorted value s,
        mem_textsMembers_sorted members s]

end

/-- The canonical text of a value has a surrogate exactly when one of the texts in the value
does. -/
theorem surrogateFree_canonical (v : Value) :
    v.canonical.SurrogateFree ↔ ∀ s ∈ v.texts, s.SurrogateFree := by
  rw [canonical, Text.SurrogateFree, Text.toList_ofList, isSurrogate_compact]
  simp only [mem_texts_sorted]

end Value

end RecordRegistry.Json
