import Mathlib.Data.List.Perm.Basic
import RecordRegistry.Proofs.Json.Document
import RecordRegistry.Proofs.Json.Line

/-!
# Canonical texts

Two values that can be read have one canonical text exactly when they are the same up to the order
of members. The text of an array tells those of its items in their order, and the text of an object
tells those of its members in no order.
-/

namespace RecordRegistry.Json.Value

/-- A member with the line of its value. -/
def memberLine (member : Text × Value) : Text × Text :=
  (member.1, Text.ofList member.2.compact)

/-- A member with the canonical text of its value. -/
def canonicalMember (member : Text × Value) : Text × Text :=
  (member.1, member.2.canonical)

theorem alikeItems_iff_map_compact (items others : List Value) :
    AlikeItems items others ↔ items.map compact = others.map compact := by
  induction items generalizing others with
  | nil => cases others <;> simp [AlikeItems]
  | cons item items ih =>
      cases others with
      | nil => simp [AlikeItems]
      | cons other others =>
          rw [AlikeItems, ← compact_eq_iff_alike, ih others, List.map_cons, List.map_cons,
            List.cons.injEq]

theorem alikeMembers_iff_map_memberLine (members others : List (Text × Value)) :
    AlikeMembers members others ↔ members.map memberLine = others.map memberLine := by
  induction members generalizing others with
  | nil => cases others <;> simp [AlikeMembers]
  | cons member members ih =>
      cases others with
      | nil => simp [AlikeMembers]
      | cons other others =>
          have hline : Text.ofList member.2.compact = Text.ofList other.2.compact ↔
              member.2.compact = other.2.compact := Text.ofList_inj
          rw [AlikeMembers, ← compact_eq_iff_alike, ih others, List.map_cons, List.map_cons,
            List.cons.injEq, memberLine, memberLine, Prod.mk.injEq, hline, and_assoc]

/-- The canonical text of an array tells those of its items. -/
theorem canonical_array_eq_iff (items others : List Value) :
    (array items).canonical = (array others).canonical ↔
      items.map canonical = others.map canonical := by
  have hitems (items : List Value) :
      items.map canonical = ((items.map sorted).map compact).map Text.ofList := by
    simp [Function.comp_def, canonical]
  rw [canonical_eq_iff_alike_sorted, sorted, sorted, Alike, alikeItems_iff_map_compact,
    sortedItems_map, sortedItems_map, hitems, hitems]
  exact (List.map_injective_iff.mpr fun _ _ => Text.ofList_inj.mp).eq_iff.symm

/-- The canonical text of an object tells those of its members up to their order. -/
theorem canonical_object_eq_iff {members : List (Text × Value)}
    (hnames : (Entries.names members).Nodup) (others : List (Text × Value)) :
    (object members).canonical = (object others).canonical ↔
      (members.map canonicalMember).Perm (others.map canonicalMember) := by
  have hsorted (members : List (Text × Value)) :
      ((sortedMembers members).mergeSort fun a b => a.1 ≤ b.1).map memberLine =
        (members.map canonicalMember).mergeSort fun a b => a.1 ≤ b.1 := by
    have hmembers : members.map canonicalMember = (sortedMembers members).map memberLine := by
      rw [sortedMembers_map, List.map_map]
      rfl
    rw [hmembers]
    exact List.map_mergeSort fun _ _ _ _ => rfl
  have hnames' : (Entries.names (members.map canonicalMember)).Nodup := by
    rw [Entries.names, List.map_map]
    exact hnames
  rw [canonical_eq_iff_alike_sorted, sorted, sorted, Alike, alikeMembers_iff_map_memberLine,
    hsorted, hsorted]
  exact Entries.mergeSort_eq_mergeSort_iff hnames'

theorem map_canonicalMember_eq_iff (members others : List (Text × Value)) :
    members.map canonicalMember = others.map canonicalMember ↔
      Entries.names members = Entries.names others ∧
        (members.map Prod.snd).map canonical = (others.map Prod.snd).map canonical := by
  induction members generalizing others with
  | nil => cases others <;> simp [Entries.names]
  | cons member members ih =>
      cases others with
      | nil => simp
      | cons other others =>
          simp only [Entries.names, List.map_cons, List.cons.injEq] at ih ⊢
          rw [ih others, canonicalMember, canonicalMember, Prod.mk.injEq]
          tauto

/-- Items that are known by their canonical texts are known by the list of these. -/
theorem map_canonical_eq_iff_forall₂_same {items others : List Value}
    (hitems : ∀ item ∈ items, ∀ other ∈ others,
      item.canonical = other.canonical ↔ Same item other) :
    items.map canonical = others.map canonical ↔ List.Forall₂ Same items others := by
  induction items generalizing others with
  | nil => cases others <;> simp
  | cons item items ih =>
      cases others with
      | nil => simp
      | cons other others =>
          have hitem := hitems item List.mem_cons_self other List.mem_cons_self
          have hrest := ih fun item hitem other hother =>
            hitems item (List.mem_cons_of_mem _ hitem) other (List.mem_cons_of_mem _ hother)
          rw [List.map_cons, List.map_cons, List.cons.injEq, hitem, hrest, List.forall₂_cons]

/-- Members whose values are known by their canonical texts are known by these up to their
order. -/
theorem perm_map_canonicalMember_iff_same {members others : List (Text × Value)}
    (hmembers : ∀ member ∈ members, ∀ other ∈ others,
      member.2.canonical = other.2.canonical ↔ Same member.2 other.2) :
    (members.map canonicalMember).Perm (others.map canonicalMember) ↔
      Same (object members) (object others) := by
  have hordered (ordered : List (Text × Value)) (horder : members.Perm ordered) :
      ordered.map canonicalMember = others.map canonicalMember ↔
        Entries.names ordered = Entries.names others ∧
          List.Forall₂ Same (ordered.map Prod.snd) (others.map Prod.snd) := by
    rw [map_canonicalMember_eq_iff]
    apply and_congr_right'
    apply map_canonical_eq_iff_forall₂_same
    intro value hvalue other hother
    obtain ⟨member, hmember, rfl⟩ := List.mem_map.mp hvalue
    obtain ⟨other, hmem, rfl⟩ := List.mem_map.mp hother
    exact hmembers member (horder.mem_iff.mpr hmember) other hmem
  constructor
  · intro h
    have hcomp : Relation.Comp (· = List.map canonicalMember ·) List.Perm
        (others.map canonicalMember) members := by
      rw [List.eq_map_comp_perm]
      exact h.symm
    obtain ⟨ordered, heq, horder⟩ := hcomp
    have hsame := (hordered ordered horder.symm).mp heq.symm
    exact .object horder.symm hsame.1 hsame.2
  · intro h
    cases h with
    | object horder hnames hvalues =>
        have heq := (hordered _ horder).mpr ⟨hnames, hvalues⟩
        exact (horder.map canonicalMember).trans (heq ▸ List.Perm.refl _)

/-- Without items and members, the order of members has no say. -/
theorem alike_sorted_iff_same_of_leaf {v : Value} (hitems : ∀ items, v ≠ array items)
    (hmembers : ∀ members, v ≠ object members) (w : Value) :
    Alike v.sorted w.sorted ↔ Same v w := by
  constructor
  · intro h
    match v, w with
    | null, null => exact .null
    | bool b, bool c => exact (show b = c from h) ▸ .bool b
    | int n, int m => exact (show n = m from h) ▸ .int n
    | real x, real y => exact .real h
    | string s, string t => exact (show s = t from h) ▸ .string s
    | array items, _ => exact absurd rfl (hitems items)
    | object members, _ => exact absurd rfl (hmembers members)
  · intro h
    cases h with
    | null => trivial
    | real h => exact h
    | bool | int | string => rfl
    | array => exact absurd rfl (hitems _)
    | object => exact absurd rfl (hmembers _)

theorem canonical_eq_iff_same_of_distinct {v w : Value} (hv : v.Distinct) (hw : w.Distinct) :
    v.canonical = w.canonical ↔ Same v w := by
  induction v using inductionOn generalizing w with
  | null | bool | int | real | string =>
      rw [canonical_eq_iff_alike_sorted]
      exact alike_sorted_iff_same_of_leaf (by simp) (by simp) w
  | array items ih =>
      cases w with
      | array others =>
          rw [distinct_array_iff] at hv hw
          have hitems : ∀ item ∈ items, ∀ other ∈ others,
              item.canonical = other.canonical ↔ Same item other := by
            intro item hitem other hother
            exact ih item hitem (hv item hitem) (hw other hother)
          rw [canonical_array_eq_iff, map_canonical_eq_iff_forall₂_same hitems, same_array_iff]
          simp
      | _ =>
          rw [canonical_eq_iff_alike_sorted]
          exact iff_of_false id nofun
  | object members ih =>
      cases w with
      | object others =>
          rw [distinct_object_iff] at hv hw
          rw [canonical_object_eq_iff hv.1]
          apply perm_map_canonicalMember_iff_same
          intro member hmember other hother
          exact ih member hmember (hv.2 member hmember) (hw.2 other hother)
      | _ =>
          rw [canonical_eq_iff_alike_sorted]
          exact iff_of_false id nofun

/--
The canonical text is a canonical form of all that can be read.  A value that is read has distinct
names in every object, and two values of that kind have one canonical text exactly when they are the
same up to the order of members.
-/
theorem canonical_eq_iff_same :
    (∀ (text : List CodePoint) (v : Value), read text = .ok v → v.Distinct) ∧
      ∀ v w : Value, v.Distinct → w.Distinct → (v.canonical = w.canonical ↔ Same v w) := by
  refine ⟨fun text v h => distinct_of_read h, ?_⟩
  intro v w hv hw
  exact canonical_eq_iff_same_of_distinct hv hw

end RecordRegistry.Json.Value

namespace RecordRegistry.CanonicalWitness

open Json (Value)

def text : Text := "\x7b\"b\": [10, \"\\\"\"], \"a\": \x7b\"y\": null, \"x\": true\x7d\x7d"

def reorderedText : Text := "\x7b\"a\":\x7b\"x\":true,\"y\":null\x7d,\"b\":[10,\"\\u0022\"]\x7d"

def value : Value :=
  .object [("b", .array [.int 10, .string "\""]), ("a", .object [("y", .null), ("x", .bool true)])]

def reordered : Value :=
  .object [("a", .object [("x", .bool true), ("y", .null)]), ("b", .array [.int 10, .string "\""])]

theorem read_text : Json.read text.toList = .ok value := by
  simp only [text, Text.toList_ofString, String.reduceToList, List.map_cons, List.map_nil]
  rfl

theorem read_reorderedText : Json.read reorderedText.toList = .ok reordered := by
  simp only [reorderedText, Text.toList_ofString, String.reduceToList, List.map_cons, List.map_nil]
  rfl

theorem same_reordered : Value.Same value reordered := by
  have hinner : Value.Same (.object [("y", .null), ("x", .bool true)])
      (.object [("x", .bool true), ("y", .null)]) :=
    .object (List.Perm.swap _ _ _) rfl (.cons (.bool true) (.cons .null .nil))
  exact .object (List.Perm.swap _ _ _) rfl (.cons hinner (.cons (Value.Same.refl _) .nil))

/-- Members may come in any order at every depth, and a whole number is none of the others. -/
theorem canonical_reordered :
    (Json.read text.toList = .ok value ∧ Json.read reorderedText.toList = .ok reordered) ∧
      value.canonical = reordered.canonical ∧
        (Value.int 1).canonical ≠ (Value.real (Double.ofDecimal false 1 0)).canonical := by
  have hvalue := Value.canonical_eq_iff_same.1 _ _ read_text
  have hreordered := Value.canonical_eq_iff_same.1 _ _ read_reorderedText
  refine ⟨⟨read_text, read_reorderedText⟩, ?_, ?_⟩
  · exact (Value.canonical_eq_iff_same.2 value reordered hvalue hreordered).mpr same_reordered
  · intro h
    have hsame := (Value.canonical_eq_iff_same.2 _ _ (.int 1) (.real _)).mp h
    cases hsame

end RecordRegistry.CanonicalWitness
