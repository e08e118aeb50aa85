import Mathlib.Data.List.Forall2
import RecordRegistry.Json.Printer
import RecordRegistry.Proofs.Entries

/-!
# Values up to the order of members

Two values are the same up to the order of members when the members of every object in the one can
be put into an order in which they are those of the other. Objects with distinct names are the same
exactly when they have the same names and, under each of them, the same values.
-/

namespace RecordRegistry.Json.Value

/-- Induction on a value, with a hypothesis for every item and every member. -/
@[elab_as_elim]
theorem inductionOn {motive : Value → Prop} (v : Value) (null : motive .null)
    (bool : ∀ b, motive (.bool b)) (int : ∀ n, motive (.int n)) (real : ∀ x, motive (.real x))
    (string : ∀ s, motive (.string s))
    (array : ∀ items, (∀ item ∈ items, motive item) → motive (.array items))
    (object : ∀ members, (∀ member ∈ members, motive member.2) → motive (.object members)) :
    motive v :=
  match v with
  | .null => null
  | .bool b => bool b
  | .int n => int n
  | .real x => real x
  | .string s => string s
  | .array items =>
      array items fun item _ => inductionOn item null bool int real string array object
  | .object members =>
      object members fun member _ => inductionOn member.2 null bool int real string array object
termination_by sizeOf v
decreasing_by
  · have hitem := List.sizeOf_lt_of_mem ‹item ∈ items›
    simp only [Value.array.sizeOf_spec]
    omega
  · have hmember := List.sizeOf_lt_of_mem ‹member ∈ members›
    obtain ⟨name, value⟩ := member
    simp only [Value.object.sizeOf_spec, Prod.mk.sizeOf_spec] at hmember ⊢
    omega

/-- A value in which the members of every object have distinct names. -/
inductive Distinct : Value → Prop
  | null : Distinct null
  | bool (b : Bool) : Distinct (bool b)
  | int (n : Int) : Distinct (int n)
  | real (x : Double) : Distinct (real x)
  | string (s : Text) : Distinct (string s)
  | array {items : List Value} (hitems : ∀ item ∈ items, Distinct item) : Distinct (array items)
  | object {members : List (Text × Value)} (hnames : (Entries.names members).Nodup)
      (hmembers : ∀ member ∈ members, Distinct member.2) : Distinct (object members)

theorem distinct_array_iff {items : List Value} :
    (array items).Distinct ↔ ∀ item ∈ items, item.Distinct := by
  constructor
  · intro h
    cases h
    assumption
  · exact .array

theorem distinct_object_iff {members : List (Text × Value)} :
    (object members).Distinct ↔
      (Entries.names members).Nodup ∧ ∀ member ∈ members, member.2.Distinct := by
  constructor
  · intro h
    cases h with
    | object hnames hmembers => exact ⟨hnames, hmembers⟩
  · rintro ⟨hnames, hmembers⟩
    exact .object hnames hmembers

/-- One value up to the order of members, at every depth. Double-precision numbers are the same when
they are written alike, and none is the same as a whole number. -/
inductive Same : Value → Value → Prop
  | null : Same null null
  | bool (b : Bool) : Same (bool b) (bool b)
  | int (n : Int) : Same (int n) (int n)
  | real {x y : Double} (h : x.text layout = y.text layout) : Same (real x) (real y)
  | string (s : Text) : Same (string s) (string s)
  | array {items others : List Value} (hitems : List.Forall₂ Same items others) :
      Same (array items) (array others)
  | object {members ordered others : List (Text × Value)} (horder : members.Perm ordered)
      (hnames : Entries.names ordered = Entries.names others)
      (hvalues : List.Forall₂ Same (ordered.map Prod.snd) (others.map Prod.snd)) :
      Same (object members) (object others)

theorem same_null_iff {v : Value} : Same v null ↔ v = null := by
  constructor
  · intro h
    cases h
    rfl
  · rintro rfl
    exact .null

theorem same_string_iff {v : Value} {s : Text} : Same v (string s) ↔ v = string s := by
  constructor
  · intro h
    cases h
    rfl
  · rintro rfl
    exact .string s

theorem same_array_iff {v : Value} {others : List Value} :
    Same v (array others) ↔ ∃ items, v = array items ∧ List.Forall₂ Same items others := by
  constructor
  · intro h
    cases h with
    | array hitems => exact ⟨_, rfl, hitems⟩
  · rintro ⟨items, rfl, hitems⟩
    exact .array hitems

/-- Every value is the same as itself. -/
theorem Same.refl (v : Value) : Same v v := by
  induction v using inductionOn with
  | null => exact .null
  | bool b => exact .bool b
  | int n => exact .int n
  | real x => exact .real rfl
  | string s => exact .string s
  | array items ih => exact .array (List.forall₂_same.mpr ih)
  | object members ih =>
      have hvalues : ∀ value ∈ members.map Prod.snd, Same value value := by
        simpa using fun value name hmem => ih (name, value) hmem
      exact .object (List.Perm.refl members) rfl (List.forall₂_same.mpr hvalues)

/-- Putting the members of all objects in the order of their names changes nothing else. -/
theorem same_sorted (v : Value) : Same v.sorted v := by
  induction v using inductionOn with
  | null | bool | int | real | string => exact Same.refl _
  | array items ih =>
      rw [sorted, sortedItems_map]
      apply Same.array
      rw [List.forall₂_map_left_iff]
      exact List.forall₂_same.mpr ih
  | object members ih =>
      -- before they were put in their order, the new members stood in that of the old ones
      rw [sorted, sortedMembers_map]
      apply Same.object (List.mergeSort_perm _ _)
      · simp [Entries.names, Function.comp_def]
      · rw [List.map_map, List.forall₂_map_left_iff, List.forall₂_map_right_iff]
        exact List.forall₂_same.mpr ih

/-- An object in the order of its names has the sorted values under them. -/
theorem exists_sorted_object (members : List (Text × Value))
    (hnames : (Entries.names members).Nodup) :
    ∃ others, (object members).sorted = object others ∧
      ∀ name, others.lookup name = (members.lookup name).map sorted := by
  refine ⟨_, rfl, ?_⟩
  intro name
  rw [sortedMembers_map, Entries.lookup_mergeSort, Entries.lookup_map_snd]
  rwa [Entries.names, List.map_map]

/-- The names in one of two objects that are the same are those in the other. -/
theorem Same.perm_names {members others : List (Text × Value)}
    (h : Same (.object members) (.object others)) :
    (Entries.names members).Perm (Entries.names others) := by
  cases h with
  | object horder hnames _ => exact hnames ▸ horder.map Prod.fst

/-- Members that are the same one by one have the same values under each name. -/
theorem exists_mem_of_forall₂_same {ordered others : List (Text × Value)}
    (hnames : Entries.names ordered = Entries.names others)
    (hvalues : List.Forall₂ Same (ordered.map Prod.snd) (others.map Prod.snd)) :
    ∀ member ∈ others, ∃ v, (member.1, v) ∈ ordered ∧ Same v member.2 := by
  induction others generalizing ordered with
  | nil => exact fun member hmember => absurd hmember List.not_mem_nil
  | cons other others ih =>
      cases ordered with
      | nil => cases hvalues
      | cons first ordered =>
          have hname : first.1 = other.1 := (List.cons.inj hnames).1
          cases hvalues with
          | cons hfirst hrest =>
              intro member hmember
              rcases List.mem_cons.mp hmember with rfl | hmember
              · exact ⟨first.2, by rw [← hname]; exact List.mem_cons_self, hfirst⟩
              · obtain ⟨v, hv, hsame⟩ := ih (List.cons.inj hnames).2 hrest member hmember
                exact ⟨v, List.mem_cons_of_mem _ hv, hsame⟩

/-- Members of distinct names can be put in the order of others when they have the same names and
the same values under them. -/
theorem same_object_of_mem {members others : List (Text × Value)}
    (hmembers : (Entries.names members).Nodup) (hothers : (Entries.names others).Nodup)
    (hnames : ∀ name ∈ Entries.names members, name ∈ Entries.names others)
    (hvalues : ∀ member ∈ others, ∃ v, (member.1, v) ∈ members ∧ Same v member.2) :
    Same (object members) (object others) := by
  induction others generalizing members with
  | nil =>
      cases members with
      | nil => exact Same.refl _
      | cons member members => exact absurd (hnames member.1 List.mem_cons_self) List.not_mem_nil
  | cons other others ih =>
      obtain ⟨v, hv, hsame⟩ := hvalues other List.mem_cons_self
      obtain ⟨before, after, rfl⟩ := List.append_of_mem hv
      have hperm : (before ++ (other.1, v) :: after).Perm ((other.1, v) :: (before ++ after)) :=
        List.perm_middle
      have hnodup : (other.1 :: Entries.names (before ++ after)).Nodup :=
        (hperm.map Prod.fst).nodup_iff.mp hmembers
      rw [List.nodup_cons] at hnodup
      rw [Entries.names, List.map_cons, List.nodup_cons] at hothers
      have hrest : Same (object (before ++ after)) (object others) := by
        apply ih hnodup.2 hothers.2
        · intro name hname
          have hmem : name ∈ Entries.names (before ++ (other.1, v) :: after) :=
            (hperm.map Prod.fst).mem_iff.mpr (List.mem_cons_of_mem _ hname)
          rcases List.mem_cons.mp (hnames name hmem) with rfl | hname'
          · exact absurd hname hnodup.1
          · exact hname'
        · intro member hmember
          obtain ⟨w, hw, hsame'⟩ := hvalues member (List.mem_cons_of_mem _ hmember)
          refine ⟨w, ?_, hsame'⟩
          rcases List.mem_cons.mp (hperm.mem_iff.mp hw) with heq | hw
          · have hname : member.1 = other.1 := (Prod.mk.inj heq).1
            exact absurd (hname ▸ List.mem_map_of_mem hmember) hothers.1
          · exact hw
      cases hrest with
      | object horder hnames hvalues =>
          exact .object (hperm.trans (horder.cons _)) (congrArg (other.1 :: ·) hnames)
            (.cons hsame hvalues)

/-- Objects with distinct names are the same when they have the same names and, under each of
them, the same values. -/
theorem same_object_iff {members others : List (Text × Value)}
    (hmembers : (Entries.names members).Nodup) (hothers : (Entries.names others).Nodup) :
    Same (object members) (object others) ↔
      (∀ name ∈ Entries.names members, name ∈ Entries.names others) ∧
        ∀ member ∈ others, ∃ v, (member.1, v) ∈ members ∧ Same v member.2 := by
  constructor
  · intro h
    cases h with
    | object horder hnames hvalues =>
        constructor
        · intro name hname
          rw [← hnames]
          exact (horder.map Prod.fst).mem_iff.mp hname
        · intro member hmember
          obtain ⟨v, hv, hsame⟩ := exists_mem_of_forall₂_same hnames hvalues member hmember
          exact ⟨v, horder.mem_iff.mpr hv, hsame⟩
  · rintro ⟨hnames, hvalues⟩
    exact same_object_of_mem hmembers hothers hnames hvalues

/-- Objects that are the same have the same value under each of their names, if these are
distinct. -/
theorem Same.lookup {members others : List (Text × Value)}
    (hothers : (Entries.names others).Nodup) (h : Same (.object members) (.object others))
    (name : Text) : Option.Rel Same (members.lookup name) (others.lookup name) := by
  have hmembers : (Entries.names members).Nodup := h.perm_names.nodup_iff.mpr hothers
  obtain ⟨hnames, hvalues⟩ := (same_object_iff hmembers hothers).mp h
  cases hlookup : others.lookup name with
  | none =>
      rw [Entries.lookup_eq_none_iff_not_mem_names] at hlookup
      rw [Entries.lookup_eq_none_iff_not_mem_names.mpr (mt (hnames name) hlookup)]
      exact .none
  | some value =>
      rw [Entries.lookup_eq_some_iff_mem hothers] at hlookup
      obtain ⟨v, hv, hsame⟩ := hvalues _ hlookup
      rw [(Entries.lookup_eq_some_iff_mem hmembers).mpr hv]
      exact .some hsame

/-- What is the same as an object of two members, the first of them a text, is such an object. -/
theorem same_pair_iff {v w : Value} {name name' s : Text} :
    Same v (object [(name, string s), (name', w)]) ↔
      ∃ members u, v = object members ∧ members.Perm [(name, string s), (name', u)] ∧ Same u w := by
  constructor
  · intro h
    cases h with
    | @object members ordered _ horder hnames hvalues =>
        match ordered, hnames, hvalues with
        | [(_, u), (_, u')], hnames, .cons hu (.cons hu' .nil) =>
            simp only [Entries.names, List.map_cons, List.map_nil, List.cons.injEq, and_true]
              at hnames
            obtain ⟨rfl, rfl⟩ := hnames
            obtain rfl := same_string_iff.mp hu
            exact ⟨members, u', rfl, horder, hu'⟩
  · rintro ⟨members, u, rfl, horder, hu⟩
    exact .object horder rfl (.cons (.string s) (.cons hu .nil))

/-- Texts are the same as themselves only. -/
theorem same_ofTexts_iff {v : Value} {texts : List Text} :
    Same v (ofTexts texts) ↔ v = ofTexts texts := by
  constructor
  · intro h
    obtain ⟨items, rfl, hitems⟩ := same_array_iff.mp h
    have hstrings : List.Forall₂ (· = ·) items (texts.map string) := by
      rw [List.forall₂_map_right_iff] at hitems ⊢
      exact hitems.imp fun _ _ => same_string_iff.mp
    rw [List.forall₂_eq_eq_eq] at hstrings
    rw [ofTexts, hstrings]
  · rintro rfl
    exact Same.refl _

theorem same_ofText?_iff {v : Value} {text : Option Text} :
    Same v (ofText? text) ↔ v = ofText? text := by
  cases text with
  | none => exact same_null_iff
  | some s => exact same_string_iff

end RecordRegistry.Json.Value
