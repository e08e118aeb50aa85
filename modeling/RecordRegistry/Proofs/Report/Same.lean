import RecordRegistry.Proofs.Json.Real
import RecordRegistry.Proofs.Order
import RecordRegistry.Report

/-!
# Rows up to the order of members

Validation sees of a value its type, and the value itself only where it has no parts. The order of
members is therefore lost on it at every depth: rows that are the same but for this order have the
same outcomes, and the same report.
-/

namespace RecordRegistry

open Json (Value Record)

theorem Json.Value.Same.schemaType_eq {v w : Value} (h : Value.Same v w) :
    v.schemaType = w.schemaType := by
  cases h with
  | real htext => rw [Value.same_real_iff.mp (.real htext)]
  | null | bool | int | string | array | object => rfl

/-- Values of a type have no parts whose order could differ. -/
theorem BaseType.Fits.eq_of_same {base : BaseType} {v w : Value} (hw : base.Fits w)
    (h : Value.Same v w) : v = w := by
  cases hw with
  | text s => exact Value.same_string_iff.mp h
  | int n =>
      cases h
      rfl
  | real hx => exact Value.same_real_iff.mp h
  | choice choices s => exact Value.same_string_iff.mp h

theorem BaseType.issue?_of_same (name : Text) (base : BaseType) {v w : Value}
    (h : Value.Same v w) : base.issue? name v = base.issue? name w := by
  cases h with
  | real htext => rw [Value.same_real_iff.mp (.real htext)]
  | null | bool | int | string => rfl
  | array | object => rcases base with ⟨_ | _⟩ | choices <;> rfl

/-- The names of a record with the types of their values. -/
def Json.Record.types (record : Record) : Entries Text :=
  record.map fun member => (member.1, member.2.schemaType)

theorem Json.Record.types_perm {a b : Record} (h : Value.Same (.object a) (.object b)) :
    (types a).Perm (types b) := by
  have htypes {ordered others : Record} (hnames : ordered.names = others.names)
      (hvalues : List.Forall₂ Value.Same (ordered.map Prod.snd) (others.map Prod.snd)) :
      types ordered = types others := by
    induction others generalizing ordered with
    | nil => rw [List.map_eq_nil_iff.mp hnames]
    | cons other others ih =>
        cases ordered with
        | nil => cases hnames
        | cons first ordered =>
            have hname : first.1 = other.1 := (List.cons.inj hnames).1
            cases hvalues with
            | cons hfirst hvalues =>
                rw [types, types, List.map_cons, List.map_cons, hname, hfirst.schemaType_eq]
                exact congrArg _ (ih (List.cons.inj hnames).2 hvalues)
  cases h with
  | object horder hnames hvalues => exact htypes hnames hvalues ▸ horder.map _

section Records

variable {a b : Record}

/-- A field finds the same in both records. -/
theorem Field.issue?_of_same (hnames : b.names.Nodup) (h : Value.Same (.object a) (.object b))
    (field : Field) : field.issue? a = field.issue? b := by
  have hlookup := h.lookup hnames field.name
  rw [issue?, issue?]
  generalize a.lookup field.name = v at hlookup ⊢
  generalize b.lookup field.name = w at hlookup ⊢
  cases hlookup with
  | none => rfl
  | some hsame => exact BaseType.issue?_of_same field.name field.type.base hsame

/-- A field that is in order has one and the same value in both records. -/
theorem Field.lookup_of_same (hnames : b.names.Nodup) (h : Value.Same (.object a) (.object b))
    {field : Field} (hissue : field.issue? b = none) :
    a.lookup field.name = b.lookup field.name := by
  have hlookup := h.lookup hnames field.name
  rw [issue?] at hissue
  generalize a.lookup field.name = v at hlookup ⊢
  generalize b.lookup field.name = w at hlookup hissue ⊢
  cases hlookup with
  | none => rfl
  | some hsame => rw [((BaseType.issue?_eq_none_iff _ _ _).mp hissue).1.eq_of_same hsame]

namespace Schema

variable (schema : Schema)

theorem types_undeclared (record : Record) :
    (schema.undeclared record).types =
      (record.types.filter (·.1 ∉ schema.names)).mergeSort fun a b => a.1 ≤ b.1 := by
  rw [undeclared, Json.Record.types, Json.Record.types, List.filter_map]
  exact List.map_mergeSort fun _ _ _ _ => rfl

theorem map_undeclared_of_same (hnames : b.names.Nodup) (h : Value.Same (.object a) (.object b)) :
    ((schema.undeclared a).map fun member => Issue.undeclared member.1 member.2) =
      (schema.undeclared b).map fun member => Issue.undeclared member.1 member.2 := by
  -- the issue of an undeclared member tells its name and the type of its value
  let issue (entry : Text × Text) : Issue :=
    { Issue.undeclared entry.1 .null with actual := some entry.2 }
  have hissues (record : Record) :
      (record.map fun member => Issue.undeclared member.1 member.2) = record.types.map issue := by
    rw [Json.Record.types, List.map_map]
    rfl
  have htypes : (Entries.names (b.types.filter (·.1 ∉ schema.names))).Nodup := by
    have hsublist : (b.types.filter (·.1 ∉ schema.names)).Sublist b.types := List.filter_sublist
    apply List.Nodup.sublist (hsublist.map _)
    rwa [Json.Record.types, List.map_map]
  rw [hissues, hissues, types_undeclared, types_undeclared,
    (Entries.mergeSort_eq_mergeSort_iff htypes).mpr
      ((Json.Record.types_perm h).filter _).symm]

theorem issues_of_same (mode : UnknownFields) (hnames : b.names.Nodup)
    (h : Value.Same (.object a) (.object b)) : schema.issues mode a = schema.issues mode b :=
  issues_congr mode (fun field _ => field.issue?_of_same hnames h)
    (schema.map_undeclared_of_same hnames h)

/-- An accepted record has its values in both orders. -/
theorem project_of_same {mode : UnknownFields} (hnames : b.names.Nodup)
    (h : Value.Same (.object a) (.object b)) (hissues : schema.issues mode b = []) :
    schema.project a = schema.project b := by
  apply List.filterMap_congr
  intro name hname
  obtain ⟨field, hfield, rfl⟩ := List.mem_map.mp hname
  rw [Field.lookup_of_same hnames h (((schema.issues_eq_nil_iff mode b).mp hissues).1 field hfield)]

/-- Records that are the same up to the order of members have the same outcome. -/
theorem validate_of_same (mode : UnknownFields) (hnames : b.names.Nodup)
    (h : Value.Same (.object a) (.object b)) : schema.validate mode a = schema.validate mode b := by
  have hissues := schema.issues_of_same mode hnames h
  by_cases hnil : schema.issues mode b = []
  · exact validate_congr hissues (schema.project_of_same hnames h hnil)
  · rw [validate_of_issues_ne_nil hnil, validate_of_issues_ne_nil (hissues ▸ hnil), hissues]

end Schema

end Records

namespace Schema

variable (schema : Schema) (mode : Text)

/-- Whatever is given for a row, it is validated or refused alike. -/
theorem validateValue_of_same {v w : Value} (hw : w.Distinct) (h : Value.Same v w) :
    schema.validateValue mode v = schema.validateValue mode w := by
  cases hmode : UnknownFields.ofName? mode with
  | none => simp only [validateValue, hmode]
  | some mode =>
      cases h with
      | object horder hnames hvalues =>
          have hdistinct := (Value.distinct_object_iff.mp hw).1
          have hvalidate := schema.validate_of_same mode hdistinct (.object horder hnames hvalues)
          simp only [validateValue, hmode, hvalidate]
      | null | bool | int | real | string | array => simp only [validateValue, hmode, Value.typeName]

theorem outcomes_of_same {rows others : List Value} (hothers : ∀ other ∈ others, other.Distinct)
    (h : List.Forall₂ Value.Same rows others) :
    schema.outcomes mode rows = schema.outcomes mode others := by
  induction h with
  | nil => rfl
  | cons hrow _ ih =>
      obtain ⟨hother, hothers⟩ := List.forall_mem_cons.mp hothers
      rw [outcomes, outcomes, schema.validateValue_of_same mode hother hrow, ih hothers]

/-- Rows that are the same up to the order of members have the same report and the same log. -/
theorem validateRows_of_same {rows others : List Value}
    (hothers : ∀ other ∈ others, other.Distinct) (h : List.Forall₂ Value.Same rows others) :
    schema.validateRows mode rows = schema.validateRows mode others := by
  rw [validateRows, validateRows, schema.outcomes_of_same mode hothers h]

end Schema

end RecordRegistry
