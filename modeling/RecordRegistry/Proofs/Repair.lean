import Mathlib.Data.List.Forall2
import RecordRegistry.Proofs.Accepted

/-!
# Repairing a record issue by issue

A change of one entry of a record concerns the issue of its name alone: all other issues stay what
and where they are. So the issues of a record can be repaired one by one and in any order, and what
is left are those that have not been repaired.
-/

namespace RecordRegistry

open Json (Value Record)

namespace Entries

variable {α : Type}

/-- Leaves out what stands under a name. -/
def without (name : Text) (entries : Entries α) : Entries α := entries.filter (·.1 ≠ name)

theorem lookup_without (name other : Text) (entries : Entries α) :
    (without name entries).lookup other = if other = name then none else entries.lookup other := by
  split
  · next h =>
    subst h
    rw [lookup_eq_none_iff_not_mem_names]
    simp [without, names]
  · next h => exact lookup_filter (· ≠ name) (decide_eq_true h) entries

theorem nodup_names_without {entries : Entries α} (h : entries.names.Nodup) (name : Text) :
    (without name entries).names.Nodup :=
  h.sublist (List.filter_sublist.map _)

end Entries

/-- A change of one entry: a value is put under a name, for the first time or in the place of
another one, or the name is removed. -/
inductive Edit where
  | put (name : Text) (value : Value)
  | remove (name : Text)

namespace Edit

/-- The name of the entry that is changed. -/
def name : Edit → Text
  | put name _ => name
  | remove name => name

/-- A record after a change. -/
def apply (record : Record) : Edit → Record
  | put name value => Entries.set name value record
  | remove name => Entries.without name record

theorem lookup_apply_of_ne {edit : Edit} {other : Text} (h : other ≠ edit.name)
    (record : Record) : (edit.apply record).lookup other = record.lookup other := by
  cases edit with
  | put name value => exact (Entries.lookup_set name other value record).trans (if_neg h)
  | remove name => exact (Entries.lookup_without name other record).trans (if_neg h)

theorem nodup_names_apply {record : Record} (h : record.names.Nodup) (edit : Edit) :
    (edit.apply record).names.Nodup := by
  cases edit with
  | put name value => exact Entries.nodup_names_set h
  | remove name => exact Entries.nodup_names_without h name

end Edit

/-- Two lists of issues that are the same but for at most one issue of a field, which is there in
both of them, or in one, or in none. -/
inductive Issue.DifferOnlyAt (name : Text) : List Issue → List Issue → Prop
  | intro (before after : List Issue) (old new : Option Issue)
      (hothers : ∀ issue ∈ before ++ after, issue.field ≠ name)
      (hold : ∀ issue ∈ old, issue.field = name) (hnew : ∀ issue ∈ new, issue.field = name) :
      DifferOnlyAt name (before ++ old.toList ++ after) (before ++ new.toList ++ after)

namespace Issue.DifferOnlyAt

variable {name : Text} {first second others : List Issue}

theorem refl (h : ∀ issue ∈ others, issue.field ≠ name) : DifferOnlyAt name others others := by
  simpa using intro others [] none none (by simpa using h) (by simp) (by simp)

theorem append_left (hothers : ∀ issue ∈ others, issue.field ≠ name)
    (h : DifferOnlyAt name first second) :
    DifferOnlyAt name (others ++ first) (others ++ second) := by
  cases h with
  | intro before after old new hrest hold hnew =>
      have hall : ∀ issue ∈ others ++ before ++ after, issue.field ≠ name := by
        rw [List.append_assoc, List.forall_mem_append]
        exact ⟨hothers, hrest⟩
      simpa using intro (others ++ before) after old new hall hold hnew

theorem append_right (h : DifferOnlyAt name first second)
    (hothers : ∀ issue ∈ others, issue.field ≠ name) :
    DifferOnlyAt name (first ++ others) (second ++ others) := by
  cases h with
  | intro before after old new hrest hold hnew =>
      have hall : ∀ issue ∈ before ++ (after ++ others), issue.field ≠ name := by
        rw [← List.append_assoc, List.forall_mem_append]
        exact ⟨hrest, hothers⟩
      simpa using intro before (after ++ others) old new hall hold hnew

/-- The issues of all other fields are the same, in the same order. -/
theorem filter_eq (h : DifferOnlyAt name first second) :
    first.filter (·.field ≠ name) = second.filter (·.field ≠ name) := by
  cases h with
  | intro before after old new hothers hold hnew =>
      have hnone {issue? : Option Issue} (h : ∀ issue ∈ issue?, issue.field = name) :
          issue?.toList.filter (·.field ≠ name) = [] := by
        rw [List.filter_eq_nil_iff]
        intro issue hissue
        simpa using h issue (Option.mem_toList.mp hissue)
      simp only [List.filter_append, hnone hold, hnone hnew]

/-- Where the second list has no issue of the field, it is what the first one has beside it. -/
theorem eq_filter (h : DifferOnlyAt name first second)
    (hsecond : ∀ issue ∈ second, issue.field ≠ name) :
    second = first.filter (·.field ≠ name) := by
  rw [h.filter_eq, eq_comm, List.filter_eq_self]
  exact fun issue hissue => decide_eq_true (hsecond issue hissue)

theorem eq_of_ne (h : DifferOnlyAt name first second) (hfirst : ∀ issue ∈ first, issue.field ≠ name)
    (hsecond : ∀ issue ∈ second, issue.field ≠ name) : second = first := by
  rw [h.eq_filter hsecond, List.filter_eq_self]
  exact fun issue hissue => decide_eq_true (hfirst issue hissue)

end Issue.DifferOnlyAt

/-- Items in the strictly ascending order of their keys: those below a key, the one that has it, and
those above it. -/
theorem eq_append_of_pairwise_lt {α : Type} {key : α → Text} {items : List α}
    (h : (items.map key).Pairwise (· < ·)) (middle : Text) :
    items = items.filter (key · < middle) ++ (items.find? (key · = middle)).toList ++
      items.filter (middle < key ·) := by
  induction items with
  | nil => rfl
  | cons item items ih =>
      rw [List.map_cons, List.pairwise_cons, List.forall_mem_map] at h
      obtain ⟨hitem, hrest⟩ := h
      have habove (hle : middle ≤ key item) :
          items.filter (key · < middle) = [] ∧ items.find? (key · = middle) = none ∧
            items.filter (middle < key ·) = items := by
        have hlt (other : α) (hother : other ∈ items) : middle < key other :=
          Text.lt_of_le_of_lt hle (hitem other hother)
        refine ⟨?_, ?_, ?_⟩
        · simpa using fun other hother => Text.lt_asymm (hlt other hother)
        · simpa using fun other hother => (Text.ne_of_lt (hlt other hother)).symm
        · simpa using hlt
      rcases Text.lt_trichotomy (key item) middle with hlt | heq | hlt
      · simpa [hlt, Text.ne_of_lt hlt, Text.lt_asymm hlt] using ih hrest
      · obtain ⟨hbelow, -, hrest⟩ := habove (heq ▸ Text.le_refl _)
        simp [heq, hbelow, hrest, Text.lt_irrefl]
      · obtain ⟨hbelow, hnone, hrest⟩ := habove (Text.not_lt.mp (Text.lt_asymm hlt))
        simp [hlt, (Text.ne_of_lt hlt).symm, Text.lt_asymm hlt, hbelow, hnone, hrest]

section Ascending

variable {name : Text} {first second : List Issue}
  (hfirst : (first.map Issue.field).Pairwise (· < ·))
  (hsecond : (second.map Issue.field).Pairwise (· < ·))
  (h : ∀ issue, issue.field ≠ name → (issue ∈ first ↔ issue ∈ second))

include hfirst hsecond h

/-- A part of ascending issues that leaves out a name is given by the issues of all other names. -/
theorem Issue.filter_eq_of_pairwise_lt (keep : Text → Bool) (hkeep : keep name = false) :
    first.filter (fun issue => keep issue.field) =
      second.filter (fun issue => keep issue.field) := by
  have hascending {issues : List Issue} (h : (issues.map Issue.field).Pairwise (· < ·)) :
      (issues.filter fun issue => keep issue.field).Pairwise fun a b => a.field < b.field :=
    (List.pairwise_map.mp h).filter _
  have hirrefl : Std.Irrefl fun a b : Issue => a.field < b.field :=
    ⟨fun a => Text.lt_irrefl a.field⟩
  have hantisymm : Std.Antisymm fun a b : Issue => a.field < b.field :=
    ⟨fun _ _ hab hba => absurd hab (Text.lt_asymm hba)⟩
  apply (hascending hfirst).eq_of_mem_iff (hascending hsecond)
  intro issue
  rw [List.mem_filter, List.mem_filter]
  refine and_congr_left fun hissue => h issue ?_
  rintro rfl
  rw [hkeep] at hissue
  cases hissue

/-- Issues in ascending order that are the same for all other names differ at most at this name. -/
theorem Issue.differOnlyAt_of_pairwise_lt : DifferOnlyAt name first second := by
  have hfield {issue : Issue} {issues : List Issue}
      (hissue : issue ∈ issues.find? (·.field = name)) : issue.field = name := by
    simpa using List.find?_some (Option.mem_def.mp hissue)
  rw [eq_append_of_pairwise_lt hfirst name, eq_append_of_pairwise_lt hsecond name,
    filter_eq_of_pairwise_lt hfirst hsecond h (· < name) (decide_eq_false (Text.lt_irrefl name)),
    filter_eq_of_pairwise_lt hfirst hsecond h (name < ·) (decide_eq_false (Text.lt_irrefl name))]
  refine .intro _ _ _ _ ?_ (fun _ => hfield) (fun _ => hfield)
  rw [List.forall_mem_append]
  constructor
  · intro issue hissue
    exact Text.ne_of_lt (of_decide_eq_true (List.mem_filter.mp hissue).2)
  · intro issue hissue
    exact (Text.ne_of_lt (of_decide_eq_true (List.mem_filter.mp hissue).2)).symm

end Ascending

namespace Schema

variable {name : Text} {a b : Record}

/-- A name that no field has is the field of no issue of them. -/
theorem field_ne_of_mem_filterMap {fields : List Field} (hname : name ∉ fields.map Field.name)
    (record : Record) : ∀ issue ∈ fields.filterMap (Field.issue? record), issue.field ≠ name := by
  intro issue hissue heq
  have hmem := (fields_filterMap_sublist fields record).subset (List.mem_map_of_mem hissue)
  exact hname (heq ▸ hmem)

/-- Records that agree on all other names have the same issues of fields but for the field of this
name. -/
theorem differOnlyAt_filterMap {fields : List Field} (hnodup : (fields.map Field.name).Nodup)
    (h : ∀ other, other ≠ name → a.lookup other = b.lookup other) :
    Issue.DifferOnlyAt name (fields.filterMap (Field.issue? a))
      (fields.filterMap (Field.issue? b)) := by
  induction fields with
  | nil => exact .refl (by simp)
  | cons field fields ih =>
      rw [List.map_cons, List.nodup_cons] at hnodup
      have hcons (record : Record) : (field :: fields).filterMap (Field.issue? record) =
          (field.issue? record).toList ++ fields.filterMap (Field.issue? record) := by
        rw [List.filterMap_eq_flatMap_toList, List.flatMap_cons,
          ← List.filterMap_eq_flatMap_toList]
      rw [hcons, hcons]
      by_cases hname : field.name = name
      · have hrest : fields.filterMap (Field.issue? a) = fields.filterMap (Field.issue? b) := by
          apply List.filterMap_congr
          intro other hother
          refine Field.issue?_congr (h other.name ?_)
          rintro rfl
          exact hnodup.1 (hname ▸ List.mem_map_of_mem hother)
        rw [hrest]
        refine .intro [] _ _ _ ?_ ?_ ?_
        · exact field_ne_of_mem_filterMap (hname ▸ hnodup.1) b
        · exact fun issue hissue => (Field.field_of_issue? hissue).trans hname
        · exact fun issue hissue => (Field.field_of_issue? hissue).trans hname
      · rw [Field.issue?_congr (h field.name hname)]
        refine .append_left ?_ (ih hnodup.2)
        intro issue hissue
        rw [Field.field_of_issue? (Option.mem_toList.mp hissue)]
        exact hname

theorem differOnlyAt_undeclared (schema : Schema) (ha : a.names.Nodup) (hb : b.names.Nodup)
    (h : ∀ other, other ≠ name → a.lookup other = b.lookup other) :
    Issue.DifferOnlyAt name
      ((schema.undeclared a).map fun member => .undeclared member.1 member.2)
      ((schema.undeclared b).map fun member => .undeclared member.1 member.2) := by
  have hascending {record : Record} (hrecord : record.names.Nodup) :
      (((schema.undeclared record).map fun member =>
        Issue.undeclared member.1 member.2).map Issue.field).Pairwise (· < ·) := by
    rw [List.map_map]
    exact schema.pairwise_lt_names_undeclared hrecord
  refine Issue.differOnlyAt_of_pairwise_lt (hascending ha) (hascending hb) ?_
  intro issue hissue
  simp only [List.mem_map, mem_undeclared_iff]
  refine exists_congr fun member => and_congr_left ?_
  rintro rfl
  have hname : member.1 ≠ name := hissue
  rw [← Entries.lookup_eq_some_iff_mem ha, ← Entries.lookup_eq_some_iff_mem hb, h _ hname]

theorem field_ne_of_mem_map_undeclared {schema : Schema} {record : Record}
    (hname : name ∈ schema.names ∨ name ∉ record.names) :
    ∀ issue ∈ (schema.undeclared record).map fun member => Issue.undeclared member.1 member.2,
      issue.field ≠ name := by
  rw [List.forall_mem_map]
  rintro member hmember rfl
  rw [mem_undeclared_iff] at hmember
  exact hname.elim hmember.2 (absurd (List.mem_map_of_mem hmember.1))

/-- Records that agree on all other names have the same issues but for the one of this name. -/
theorem differOnlyAt_issues (schema : Schema) (mode : UnknownFields) (ha : a.names.Nodup)
    (hb : b.names.Nodup) (h : ∀ other, other ≠ name → a.lookup other = b.lookup other) :
    Issue.DifferOnlyAt name (schema.issues mode a) (schema.issues mode b) := by
  have hfields := differOnlyAt_filterMap schema.nodup h
  have hmembers := schema.differOnlyAt_undeclared ha hb h
  cases mode with
  | ignore => rwa [issues_ignore, issues_ignore]
  | reject =>
      rw [issues_reject, issues_reject, issues_ignore, issues_ignore]
      -- a name is declared or not, so that one of the two parts has no issue of it
      by_cases hname : name ∈ schema.names
      · rw [hmembers.eq_of_ne (field_ne_of_mem_map_undeclared (.inl hname))
          (field_ne_of_mem_map_undeclared (.inl hname))]
        exact hfields.append_right (field_ne_of_mem_map_undeclared (.inl hname))
      · rw [hfields.eq_of_ne (field_ne_of_mem_filterMap hname a)
          (field_ne_of_mem_filterMap hname b)]
        exact hmembers.append_left (field_ne_of_mem_filterMap hname a)

/-- The changes that repair an issue: a value that its type accepts for a field, and the removal of
an undeclared member. -/
inductive Repairs (schema : Schema) : Issue → Edit → Prop
  | fill {issue : Issue} {field : Field} {value : Value} (hcode : issue.code ≠ .unknownField)
      (hfield : field ∈ schema.fields) (hname : issue.field = field.name)
      (hvalue : field.type.base.Accepts value) : Repairs schema issue (.put issue.field value)
  | drop {issue : Issue} (hcode : issue.code = .unknownField) :
      Repairs schema issue (.remove issue.field)

theorem Repairs.name_eq {schema : Schema} {issue : Issue} {edit : Edit}
    (h : schema.Repairs issue edit) : edit.name = issue.field := by
  cases h <;> rfl

/-- The issues of fields are those of declared names. -/
theorem code_eq_unknownField_iff {schema : Schema} {mode : UnknownFields} {record : Record}
    {issue : Issue} (h : issue ∈ schema.issues mode record) :
    issue.code = .unknownField ↔ issue.field ∉ schema.names := by
  rcases (schema.mem_issues_iff mode record issue).mp h with
    ⟨field, hfield, hissue⟩ | ⟨-, member, -, hmember, rfl⟩
  · rw [Field.field_of_issue? hissue]
    exact iff_of_false (Field.code_ne_of_issue? hissue) (not_not.mpr (List.mem_map_of_mem hfield))
  · exact iff_of_true rfl hmember

/-- Every issue of a record can be repaired. -/
theorem exists_repairs {schema : Schema} {mode : UnknownFields} {record : Record} {issue : Issue}
    (h : issue ∈ schema.issues mode record) : ∃ edit, schema.Repairs issue edit := by
  by_cases hcode : issue.code = .unknownField
  · exact ⟨_, .drop hcode⟩
  · have hdeclared := not_not.mp (mt (code_eq_unknownField_iff h).mpr hcode)
    obtain ⟨field, hfield, hname⟩ := List.mem_map.mp hdeclared
    obtain ⟨value, hvalue⟩ := field.type.base.exists_accepts
    exact ⟨_, .fill hcode hfield hname.symm hvalue⟩

theorem exists_forall₂_repairs {schema : Schema} {mode : UnknownFields} {record : Record}
    {repaired : List Issue} (h : repaired ⊆ schema.issues mode record) :
    ∃ edits, List.Forall₂ schema.Repairs repaired edits := by
  induction repaired with
  | nil => exact ⟨[], .nil⟩
  | cons issue repaired ih =>
      rw [List.cons_subset] at h
      obtain ⟨edit, hedit⟩ := exists_repairs h.1
      obtain ⟨edits, hedits⟩ := ih h.2
      exact ⟨edit :: edits, .cons hedit hedits⟩

/-- The changes behind which a record has no issue of their name, whatever it had before. -/
inductive Settles (schema : Schema) : Edit → Prop
  | put {field : Field} {value : Value} (hfield : field ∈ schema.fields)
      (hvalue : field.type.base.Accepts value) : Settles schema (.put field.name value)
  | remove {name : Text} (hname : name ∉ schema.names) : Settles schema (.remove name)

theorem Repairs.settles {schema : Schema} {mode : UnknownFields} {record : Record} {issue : Issue}
    {edit : Edit} (h : schema.Repairs issue edit) (hissue : issue ∈ schema.issues mode record) :
    schema.Settles edit := by
  cases h with
  | fill _ hfield hname hvalue => exact hname ▸ .put hfield hvalue
  | drop hcode => exact .remove ((code_eq_unknownField_iff hissue).mp hcode)

theorem field_ne_of_mem_issues_apply {schema : Schema} {mode : UnknownFields} {record : Record}
    {edit : Edit} (h : schema.Settles edit) :
    ∀ issue ∈ schema.issues mode (edit.apply record), issue.field ≠ edit.name := by
  intro issue hissue heq
  rcases (schema.mem_issues_iff mode _ issue).mp hissue with
    ⟨field, hfield, hsome⟩ | ⟨-, member, hmember, hundeclared, rfl⟩
  · rw [Field.field_of_issue? hsome] at heq
    cases h with
    | @put settled value hsettled hvalue =>
        obtain rfl := List.inj_on_of_nodup_map schema.nodup hfield hsettled heq
        have hlookup : ((Edit.put field.name value).apply record).lookup field.name = some value :=
          (Entries.lookup_set _ _ _ _).trans (if_pos rfl)
        rw [(Field.issue?_eq_none_iff_met _ field).mpr (.given hlookup hvalue)] at hsome
        cases hsome
    | remove hname => exact hname (List.mem_map.mpr ⟨field, hfield, heq⟩)
  · cases h with
    | put hfield hvalue => exact hundeclared (List.mem_map.mpr ⟨_, hfield, heq.symm⟩)
    | remove hname => exact of_decide_eq_true (List.mem_filter.mp hmember).2 heq

/-- A change that settles its name leaves all other issues. -/
theorem issues_apply (schema : Schema) (mode : UnknownFields) {record : Record}
    (hnames : record.names.Nodup) {edit : Edit} (h : schema.Settles edit) :
    schema.issues mode (edit.apply record) =
      (schema.issues mode record).filter (·.field ≠ edit.name) := by
  refine (schema.differOnlyAt_issues mode hnames (Edit.nodup_names_apply hnames edit) ?_).eq_filter
    (field_ne_of_mem_issues_apply h)
  exact fun other hother => (Edit.lookup_apply_of_ne hother record).symm

/-- Changes one after the other, each for the name of an issue, leave the issues of all other
names. -/
theorem issues_foldl_apply (schema : Schema) (mode : UnknownFields) {record : Record}
    (hnames : record.names.Nodup) {repaired : List Issue} {edits : List Edit}
    (h : List.Forall₂ (fun issue edit => edit.name = issue.field ∧ schema.Settles edit)
      repaired edits) :
    schema.issues mode (edits.foldl Edit.apply record) =
      (schema.issues mode record).filter (·.field ∉ repaired.map Issue.field) := by
  induction h generalizing record with
  | nil => simp
  | @cons issue edit repaired edits hedit _ ih =>
      rw [List.foldl_cons, ih (Edit.nodup_names_apply hnames edit),
        schema.issues_apply mode hnames hedit.2, hedit.1, List.filter_filter]
      apply List.filter_congr
      intro other _
      rw [← Bool.decide_and, decide_eq_decide, List.map_cons, List.mem_cons, not_or, and_comm]

/-- What is left behind repairs are the issues that have not been repaired. -/
theorem issues_foldl_repairs {schema : Schema} (mode : UnknownFields) {record : Record}
    (hnames : record.names.Nodup) {repaired : List Issue} {edits : List Edit}
    (hrepaired : repaired ⊆ schema.issues mode record)
    (hedits : List.Forall₂ schema.Repairs repaired edits) :
    schema.issues mode (edits.foldl Edit.apply record) =
      (schema.issues mode record).filter (· ∉ repaired) := by
  have hsettles : List.Forall₂ (fun issue edit => edit.name = issue.field ∧ schema.Settles edit)
      repaired edits := by
    refine ((List.forall₂_and_left _ _).mpr ⟨fun _ hissue => hrepaired hissue, hedits⟩).imp ?_
    rintro issue edit ⟨hissue, hedit⟩
    exact ⟨hedit.name_eq, hedit.settles hissue⟩
  rw [schema.issues_foldl_apply mode hnames hsettles]
  apply List.filter_congr
  intro issue hissue
  rw [decide_eq_decide, not_iff_not]
  constructor
  · intro h
    obtain ⟨other, hother, heq⟩ := List.mem_map.mp h
    have hnodup := schema.nodup_fields_issues mode hnames
    rwa [← List.inj_on_of_nodup_map hnodup (hrepaired hother) hissue heq]
  · exact List.mem_map_of_mem

/--
Issues are independent of each other.  When a value is put under a name or the name is removed, the
issues stay the same but for at most one, which is the issue of this name.  So any of them can be
repaired, in any order: put values that their types accept for fields, remove undeclared members,
and what is left are the other issues in their order.  With all of them repaired, the record is
accepted.
-/
theorem issues_repaired (schema : Schema) (mode : UnknownFields) (record : Record)
    (hnames : record.names.Nodup) :
    (∀ edit : Edit, Issue.DifferOnlyAt edit.name (schema.issues mode record)
      (schema.issues mode (edit.apply record))) ∧
    ∀ repaired : List Issue, repaired ⊆ schema.issues mode record →
      (∃ edits, List.Forall₂ schema.Repairs repaired edits) ∧
      ∀ edits, List.Forall₂ schema.Repairs repaired edits →
        schema.issues mode (edits.foldl Edit.apply record) =
          (schema.issues mode record).filter (· ∉ repaired) ∧
        (schema.issues mode record ⊆ repaired →
          (schema.validate mode (edits.foldl Edit.apply record)).ok = true) := by
  refine ⟨?_, ?_⟩
  · intro edit
    apply schema.differOnlyAt_issues mode hnames (Edit.nodup_names_apply hnames edit)
    exact fun other hother => (Edit.lookup_apply_of_ne hother record).symm
  · intro repaired hrepaired
    refine ⟨exists_forall₂_repairs hrepaired, ?_⟩
    intro edits hedits
    have hleft := issues_foldl_repairs mode hnames hrepaired hedits
    refine ⟨hleft, ?_⟩
    intro hall
    rw [ok_validate_iff, hleft, List.filter_eq_nil_iff]
    exact fun issue hissue => by simpa using hall hissue

end Schema

namespace RepairWitness

open VerdictWitness (schema colours record undeclared_record)

def issues : List Issue :=
  [.mismatch "mass" (.primitive .number) (.bool true), .notAChoice "colour" colours "green",
    .missing "label" (.plain (.primitive .string)), .undeclared "age" (.int 3),
    .undeclared "weight" .null]

/-- An undeclared member is repaired before a field that stands in front of it. -/
def repaired : List Issue :=
  [.undeclared "weight" .null, .mismatch "mass" (.primitive .number) (.bool true)]

def edits : List Edit := [.remove "weight", .put "mass" (.int 3)]

theorem issues_record : schema.issues .reject record = issues := by
  rw [Schema.issues, undeclared_record]
  rfl

theorem repairs_edits : List.Forall₂ schema.Repairs repaired edits := by
  have hmass : schema.fields[0] ∈ schema.fields := List.getElem_mem _
  exact .cons (.drop rfl) (.cons (.fill (by simp [Issue.mismatch]) hmass rfl (.int 3)) .nil)

/-- Three issues are left as they were. -/
theorem issues_foldl_edits :
    (record.names.Nodup ∧ repaired ⊆ schema.issues .reject record ∧
      List.Forall₂ schema.Repairs repaired edits) ∧
    schema.issues .reject (edits.foldl Edit.apply record) =
      [.notAChoice "colour" colours "green", .missing "label" (.plain (.primitive .string)),
        .undeclared "age" (.int 3)] := by
  have hnames : record.names.Nodup := by decide
  have hrepaired : repaired ⊆ schema.issues .reject record := by
    rw [issues_record]
    simp [repaired, issues]
  refine ⟨⟨hnames, hrepaired, repairs_edits⟩, ?_⟩
  obtain ⟨-, h⟩ := schema.issues_repaired .reject record hnames
  rw [((h repaired hrepaired).2 edits repairs_edits).1, issues_record]
  decide

end RepairWitness

end RecordRegistry
