import RecordRegistry.Proofs.Json.Same
import RecordRegistry.Schema.Declaration
import RecordRegistry.Schema.Export

/-!
# What is read as a declaration

Types and fields are read from the values that are their declarations, up to the order of members,
and from nothing else. Of a schema the declaration may leave out members that are null in it. For
every check there is one lemma that says what it accepts.
-/

namespace RecordRegistry

open Json (Value Record)

namespace Declaration

variable {α β : Type}

theorem text_eq_ok_iff {value : Value} {s : Text} :
    text value = .ok s ↔ value = .string s := by
  cases value <;> simp [text, Checked.fail]

theorem optionalText_eq_ok_iff {value : Value} {s? : Option Text} :
    optionalText value = .ok s? ↔ value = Value.ofText? s? := by
  cases value <;> cases s? <;>
    simp [optionalText, text, Value.ofText?, Checked.map, Checked.fail]

theorem among_eq_ok_iff {expected : List Text} {value : Value} {s : Text} :
    among expected value = .ok s ↔ value = .string s ∧ s ∈ expected := by
  cases value with
  | string text =>
      by_cases h : text ∈ expected
      · simp only [among, if_pos h, Except.ok.injEq, Value.string.injEq]
        exact ⟨fun heq => ⟨heq, heq ▸ h⟩, fun heq => heq.1⟩
      · simp only [among, if_neg h, Checked.fail, reduceCtorEq, Value.string.injEq, false_iff]
        rintro ⟨rfl, hmem⟩
        exact h hmem
  | _ => simp [among, Checked.fail]

theorem items_eq_ok_iff {check : Value → Checked α} (index : Nat) {values : List Value}
    {found : List α} :
    items check index values = .ok found ↔
      List.Forall₂ (fun value a => check value = .ok a) values found := by
  induction values generalizing index found with
  | nil => simp [items, eq_comm]
  | cons value values ih =>
      rw [items, Checked.map_eq_ok_iff, List.forall₂_cons_left_iff]
      constructor
      · rintro ⟨⟨a, rest⟩, hboth, rfl⟩
        rw [Checked.both_eq_ok_iff, Checked.within_eq_ok_iff, ih] at hboth
        exact ⟨a, rest, hboth.1, hboth.2, rfl⟩
      · rintro ⟨a, rest, ha, hrest, rfl⟩
        refine ⟨(a, rest), ?_, rfl⟩
        rw [Checked.both_eq_ok_iff, Checked.within_eq_ok_iff, ih]
        exact ⟨ha, hrest⟩

theorem list_eq_ok_iff {check : Value → Checked α} {value : Value} {found : List α} :
    list check value = .ok found ↔ ∃ values, value = .array values ∧
      List.Forall₂ (fun value a => check value = .ok a) values found := by
  cases value with
  | array values => simp [list, items_eq_ok_iff]
  | _ => simp [list, Checked.fail]

theorem object_eq_ok_iff {model : Text} {check : Record → Checked α} {value : Value} {a : α} :
    object model check value = .ok a ↔
      ∃ members, value = .object members ∧ check members = .ok a := by
  cases value <;> simp [object, Checked.fail]

theorem required_eq_ok_iff {name : Text} {check : Value → Checked α} {members : Record} {a : α} :
    required name check members = .ok a ↔
      ∃ value, members.lookup name = some value ∧ check value = .ok a := by
  cases hvalue : members.lookup name with
  | none => simp [required, hvalue, Checked.fail, Checked.within]
  | some value => simp [required, hvalue, Checked.within_eq_ok_iff]

/-- An optional text may be missing or null. -/
theorem optional_optionalText_eq_ok_iff {name : Text} {members : Record} {s? : Option Text} :
    optional name none optionalText members = .ok s? ↔
      (members.lookup name).getD .null = Value.ofText? s? := by
  cases hvalue : members.lookup name with
  | none => cases s? <;> simp [optional, hvalue, Value.ofText?]
  | some value =>
      simp [optional, hvalue, Checked.within_eq_ok_iff, optionalText_eq_ok_iff]

theorem noOthers_eq_ok_iff {names : List Text} {members : Record} {found : Unit} :
    noOthers names members = .ok found ↔ ∀ name ∈ members.names, name ∈ names := by
  have hothers : members.filter (·.1 ∉ names) = [] ↔ ∀ name ∈ members.names, name ∈ names := by
    simp [List.filter_eq_nil_iff, Entries.names]
  rw [← hothers, noOthers]
  split
  · next h => simpa using h
  · next h => simpa using h

/-- Two members that must be there and no others make an object of these two. -/
theorem bothRequired_eq_ok_iff {name name' : Text} (hne : name ≠ name')
    {check : Value → Checked α} {check' : Value → Checked β} {members : Record}
    (hnames : members.names.Nodup) {a : α} {b : β} :
    ((required name check members).both ((required name' check' members).both
        (noOthers [name, name'] members))) = .ok (a, b, ()) ↔
      ∃ v w, members.Perm [(name, v), (name', w)] ∧ check v = .ok a ∧ check' w = .ok b := by
  simp only [Checked.both_eq_ok_iff, required_eq_ok_iff, noOthers_eq_ok_iff]
  constructor
  · rintro ⟨⟨v, hv, ha⟩, ⟨w, hw, hb⟩, hothers⟩
    exact ⟨v, w, (Entries.perm_pair_iff hnames hne).mpr ⟨hv, hw, hothers⟩, ha, hb⟩
  · rintro ⟨v, w, hperm, ha, hb⟩
    obtain ⟨hv, hw, hothers⟩ := (Entries.perm_pair_iff hnames hne).mp hperm
    exact ⟨⟨v, hv, ha⟩, ⟨w, hw, hb⟩, hothers⟩

/-- Where the kind is there, it must be the expected one. -/
theorem kind_of_lookup {tag : Text} {members : Record} {value : Value}
    (h : members.lookup ("kind" : Text) = some value) :
    kind tag members = required "kind" (among [tag]) members := by
  simp only [kind, optional, required, h]

/-- An object of the right kind with the member that its kind asks for and no others has the problems
of this member alone. -/
theorem tagged_eq {tag name : Text} {check : Value → Checked α} {f : α → β} {members : Record}
    {value : Value} (hvalue : members.lookup name = some value)
    (hkind : ∀ value, members.lookup ("kind" : Text) = some value → value = .string tag)
    (hothers : ∀ other ∈ members.names, other = "kind" ∨ other = name) :
    ((kind tag members).both ((required name check members).both
        (noOthers ["kind", name] members))).map (fun parts => f parts.2.1) =
      ((check value).within (.key name)).map f := by
  have htag : kind tag members = .ok tag := by
    rw [kind, Declaration.optional]
    split
    · rfl
    · next found hlookup =>
      rw [hkind found hlookup, among, if_pos (List.mem_singleton_self tag)]
      rfl
  have hno : noOthers ["kind", name] members = .ok () :=
    noOthers_eq_ok_iff.mpr fun other hother => by simpa using hothers other hother
  simp only [htag, hno, required, hvalue]
  cases check value <;> simp [Checked.within, Checked.both, Checked.map, Checked.problems]

theorem list_text_eq_ok_iff {value : Value} {texts : List Text} :
    list text value = .ok texts ↔ value = Value.ofTexts texts := by
  have hstrings : ∀ values : List Value,
      List.Forall₂ (fun value s => text value = .ok s) values texts ↔
        values = texts.map .string := by
    intro values
    simp only [text_eq_ok_iff]
    rw [← List.forall₂_map_right_iff, List.forall₂_eq_eq_eq]
  simp [list_eq_ok_iff, hstrings, Value.ofTexts]

theorem choices_eq_ok_iff {value : Value} {found : Choices} :
    choices value = .ok found ↔ value = Value.ofTexts found.values := by
  simp only [choices, Checked.andThen_eq_ok_iff, list_text_eq_ok_iff]
  constructor
  · rintro ⟨values, hvalue, hfound⟩
    split at hfound
    · cases hfound
    · split at hfound
      · cases hfound
        exact hvalue
      · cases hfound
  · intro hvalue
    refine ⟨found.values, hvalue, ?_⟩
    rw [dif_neg found.values_ne_nil,
      dif_pos (Text.Sightings.repeated_ofTexts_eq_nil_iff.mpr found.nodup)]

theorem primitiveName_eq_ok_iff {value : Value} {p : Primitive} :
    primitiveName value = .ok p ↔ value = .string p.name := by
  simp only [primitiveName, Checked.map_eq_ok_iff, among_eq_ok_iff]
  constructor
  · rintro ⟨name, ⟨hvalue, hname⟩, rfl⟩
    rcases List.mem_pair.mp hname with rfl | rfl <;> exact hvalue
  · intro hvalue
    refine ⟨p.name, ⟨hvalue, ?_⟩, ?_⟩ <;> cases p <;> simp [Primitive.name]

theorem unwrapped_eq_ok_iff {type : FieldType} {base : BaseType} :
    unwrapped type = .ok base ↔ type = .plain base := by
  cases type <;> simp [unwrapped, Checked.fail]

theorem innerType_eq (members : List (Text × Value)) :
    innerType members = (members.lookup ("inner" : Text)).map fieldType := by
  induction members with
  | nil => rfl
  | cons member members ih =>
      obtain ⟨name, value⟩ := member
      rw [innerType, List.lookup_cons]
      by_cases h : name = "inner"
      · subst h
        rfl
      · rw [if_neg h, ih, beq_false_of_ne (Ne.symm h)]

theorem optionalType_innerType (members : Record) :
    optionalType (innerType members) members =
      ((kind "optional" members).both
        ((required "inner" (fun value => (fieldType value).andThen unwrapped) members).both
          (noOthers ["kind", "inner"] members))).map fun parts => .optional parts.2.1 := by
  rw [innerType_eq]
  unfold optionalType required
  cases members.lookup ("inner" : Text) <;> rfl

/-- The word for the kind of a type. -/
def kindName : FieldType → Text
  | .plain (.primitive _) => "primitive"
  | .plain (.enum _) => "enum"
  | .optional _ => "optional"

/-- A declaration of a type has two members, the first of which is the word for its kind. -/
theorem exists_toValue_eq (type : FieldType) :
    ∃ (name : Text) (w : Value), "kind" ≠ name ∧
      type.toValue = .object [("kind", .string (kindName type)), (name, w)] := by
  rcases type with (_ | _) | _
  · exact ⟨"primitive", _, by decide, rfl⟩
  · exact ⟨"allowed", _, by decide, rfl⟩
  · exact ⟨"inner", _, by decide, rfl⟩

theorem lookup_kind_of_same {members : Record} (hnames : members.names.Nodup) (type : FieldType)
    (h : Value.Same (.object members) type.toValue) :
    members.lookup ("kind" : Text) = some (.string (kindName type)) := by
  obtain ⟨name, w, hne, htype⟩ := exists_toValue_eq type
  rw [htype, Value.same_pair_iff] at h
  obtain ⟨_, u, heq, hperm, -⟩ := h
  cases heq
  exact ((Entries.perm_pair_iff hnames hne).mp hperm).1

/-- A type of a kind is read from its declaration, when the member beside the kind is. -/
theorem tagged_eq_ok_iff {members : Record} (hnames : members.names.Nodup) {tag name : Text}
    (htag : members.lookup ("kind" : Text) = some (.string tag)) (hne : ("kind" : Text) ≠ name)
    {check : Value → Checked α} {payload : α → Value} {f : α → FieldType}
    (hcheck : ∀ w, (name, w) ∈ members → ∀ a, check w = .ok a ↔ w.Same (payload a))
    (hvalue : ∀ a, (f a).toValue = .object [("kind", .string tag), (name, payload a)])
    (hkind : ∀ type, kindName type = tag → ∃ a, f a = type) {type : FieldType} :
    ((kind tag members).both ((required name check members).both
        (noOthers ["kind", name] members))).map (fun parts => f parts.2.1) = .ok type ↔
      Value.Same (.object members) type.toValue := by
  rw [Checked.map_eq_ok_iff, kind_of_lookup htag]
  constructor
  · rintro ⟨⟨s, a, ⟨⟩⟩, hparts, rfl⟩
    obtain ⟨v, w, hperm, hs, ha⟩ := (bothRequired_eq_ok_iff hne hnames).mp hparts
    obtain ⟨hv, -, -⟩ := (Entries.perm_pair_iff hnames hne).mp hperm
    rw [htag, Option.some.injEq] at hv
    subst hv
    have hw : w.Same (payload a) := (hcheck w (hperm.mem_iff.mpr (by simp)) a).mp ha
    rw [hvalue, Value.same_pair_iff]
    exact ⟨members, w, rfl, hperm, hw⟩
  · intro hsame
    have htype := lookup_kind_of_same hnames type hsame
    rw [htag, Option.some.injEq, Value.string.injEq] at htype
    obtain ⟨a, rfl⟩ := hkind type htype.symm
    rw [hvalue, Value.same_pair_iff] at hsame
    obtain ⟨_, w, ⟨⟩, hperm, hw⟩ := hsame
    have ha : check w = .ok a := (hcheck w (hperm.mem_iff.mpr (by simp)) a).mpr hw
    refine ⟨(tag, a, ()), (bothRequired_eq_ok_iff hne hnames).mpr ?_, rfl⟩
    exact ⟨.string tag, w, hperm, among_eq_ok_iff.mpr ⟨rfl, List.mem_singleton_self tag⟩, ha⟩

theorem exists_primitive_of_kindName {type : FieldType} (h : kindName type = "primitive") :
    ∃ p, .plain (.primitive p) = type := by
  rcases type with (p | c) | base
  · exact ⟨p, rfl⟩
  · simp [kindName] at h
  · simp [kindName] at h

theorem exists_enum_of_kindName {type : FieldType} (h : kindName type = "enum") :
    ∃ c, .plain (.enum c) = type := by
  rcases type with (p | c) | base
  · simp [kindName] at h
  · exact ⟨c, rfl⟩
  · simp [kindName] at h

theorem exists_optional_of_kindName {type : FieldType} (h : kindName type = "optional") :
    ∃ base, .optional base = type := by
  rcases type with (p | c) | base
  · simp [kindName] at h
  · simp [kindName] at h
  · exact ⟨base, rfl⟩

theorem plain_primitiveType_eq_ok_iff {members : Record} (hnames : members.names.Nodup)
    (htag : members.lookup ("kind" : Text) = some (.string "primitive")) {type : FieldType} :
    (primitiveType members).map .plain = .ok type ↔
      Value.Same (.object members) type.toValue := by
  rw [primitiveType, Checked.map_map]
  apply tagged_eq_ok_iff hnames htag (by decide) _ (fun _ => rfl)
    fun _ => exists_primitive_of_kindName
  intro w _ p
  rw [primitiveName_eq_ok_iff, Value.same_string_iff]

theorem plain_enumType_eq_ok_iff {members : Record} (hnames : members.names.Nodup)
    (htag : members.lookup ("kind" : Text) = some (.string "enum")) {type : FieldType} :
    (enumType members).map .plain = .ok type ↔ Value.Same (.object members) type.toValue := by
  rw [enumType, Checked.map_map]
  apply tagged_eq_ok_iff hnames htag (by decide) _ (fun _ => rfl) fun _ => exists_enum_of_kindName
  intro w _ c
  rw [choices_eq_ok_iff, Value.same_ofTexts_iff]

theorem optionalType_eq_ok_iff {members : Record} (hnames : members.names.Nodup)
    (htag : members.lookup ("kind" : Text) = some (.string "optional"))
    (hinner : ∀ member ∈ members, ∀ type,
      fieldType member.2 = .ok type ↔ Value.Same member.2 type.toValue) {type : FieldType} :
    optionalType (innerType members) members = .ok type ↔
      Value.Same (.object members) type.toValue := by
  rw [optionalType_innerType]
  apply tagged_eq_ok_iff hnames htag (by decide) _ (fun _ => rfl)
    fun _ => exists_optional_of_kindName
  intro w hw base
  simp only [Checked.andThen_eq_ok_iff, unwrapped_eq_ok_iff, exists_eq_right]
  exact hinner ("inner", w) hw (.plain base)

/-- A type is read from its declaration and from nothing else. -/
theorem fieldType_eq_ok_iff {value : Value} (h : value.Distinct) {type : FieldType} :
    fieldType value = .ok type ↔ value.Same type.toValue := by
  induction value using Value.inductionOn generalizing type with
  | object members ih =>
      obtain ⟨hnames, hmembers⟩ := Value.distinct_object_iff.mp h
      rw [fieldType]
      have hfail {cause : Cause}
          (hkind : members.lookup ("kind" : Text) ≠ some (.string (kindName type))) :
          Checked.fail cause = .ok type ↔ Value.Same (.object members) type.toValue :=
        iff_of_false (by simp [Checked.fail]) fun hsame =>
          hkind (lookup_kind_of_same hnames type hsame)
      -- a case for each kind that there is, one for none and one for any other
      split
      · next hnone => exact hfail (by simp [hnone])
      · next name htag =>
        split
        · next hprimitive =>
          subst hprimitive
          rw [Checked.within_eq_ok_iff]
          exact plain_primitiveType_eq_ok_iff hnames htag
        · next hprimitive =>
          split
          · next henum =>
            subst henum
            rw [Checked.within_eq_ok_iff]
            exact plain_enumType_eq_ok_iff hnames htag
          · next henum =>
            split
            · next hoptional =>
              subst hoptional
              rw [Checked.within_eq_ok_iff]
              apply optionalType_eq_ok_iff hnames htag
              intro member hmember type
              exact ih member hmember (hmembers member hmember)
            · next hoptional =>
              apply hfail
              rw [htag]
              rcases type with (p | c) | base <;> simp [kindName, hprimitive, henum, hoptional]
      · next other hother htag =>
        apply hfail
        rw [htag]
        exact fun h => hother _ (Option.some.inj h)
  | _ =>
      obtain ⟨name, w, -, htype⟩ := exists_toValue_eq type
      rw [htype, Value.same_pair_iff]
      simp [fieldType, Checked.fail]

theorem fieldName_eq_ok_iff {value : Value} {name : { name : Text // name ≠ "" }} :
    fieldName value = .ok name ↔ value = .string name.1 := by
  simp only [fieldName, Checked.andThen_eq_ok_iff, text_eq_ok_iff]
  constructor
  · rintro ⟨s, hvalue, hname⟩
    split at hname
    · cases hname
    · cases hname
      exact hvalue
  · intro hvalue
    exact ⟨name.1, hvalue, by rw [dif_neg name.2]⟩

/-- A field is read from its declaration and from nothing else. -/
theorem field_eq_ok_iff {value : Value} (h : value.Distinct) {found : Field} :
    field value = .ok found ↔ value.Same found.toValue := by
  simp only [field, object_eq_ok_iff, Checked.map_eq_ok_iff, Field.toValue, Value.same_pair_iff]
  constructor
  · rintro ⟨members, rfl, ⟨name, type, ⟨⟩⟩, hparts, rfl⟩
    obtain ⟨hnames, hmembers⟩ := Value.distinct_object_iff.mp h
    obtain ⟨v, w, hperm, hv, hw⟩ := (bothRequired_eq_ok_iff (by decide) hnames).mp hparts
    obtain rfl := fieldName_eq_ok_iff.mp hv
    have hw' : w.Distinct := hmembers ("type", w) (hperm.mem_iff.mpr (by simp))
    exact ⟨members, w, rfl, hperm, (fieldType_eq_ok_iff hw').mp hw⟩
  · rintro ⟨members, w, rfl, hperm, hw⟩
    obtain ⟨hnames, hmembers⟩ := Value.distinct_object_iff.mp h
    have hw' : w.Distinct := hmembers ("type", w) (hperm.mem_iff.mpr (by simp))
    refine ⟨members, rfl, (⟨found.name, found.name_ne_empty⟩, found.type, ()), ?_, rfl⟩
    rw [bothRequired_eq_ok_iff (by decide) hnames]
    exact ⟨_, w, hperm, fieldName_eq_ok_iff.mpr rfl, (fieldType_eq_ok_iff hw').mpr hw⟩

theorem list_field_eq_ok_iff {value : Value} (h : value.Distinct) {found : List Field} :
    list field value = .ok found ↔ value.Same (.array (found.map Field.toValue)) := by
  rw [list_eq_ok_iff, Value.same_array_iff]
  apply exists_congr
  intro values
  apply and_congr_right
  rintro rfl
  rw [Value.distinct_array_iff] at h
  rw [List.forall₂_map_right_iff]
  constructor
  · intro hfound
    apply ((List.forall₂_and_left _ _).mpr ⟨h, hfound⟩).imp
    rintro value found ⟨hvalue, hread⟩
    exact (field_eq_ok_iff hvalue).mp hread
  · intro hsame
    apply ((List.forall₂_and_left _ _).mpr ⟨h, hsame⟩).imp
    rintro value found ⟨hvalue, hsame⟩
    exact (field_eq_ok_iff hvalue).mpr hsame

theorem distinct_eq_ok_iff {fields : List Field}
    {found : { fields : List Field // (fields.map Field.name).Nodup }} :
    distinct fields = .ok found ↔ fields = found.1 := by
  rw [distinct]
  split
  · simp [Subtype.ext_iff]
  · next hfields =>
    simp only [Checked.fail, reduceCtorEq, false_iff]
    rintro rfl
    exact hfields (Text.Sightings.repeated_ofTexts_eq_nil_iff.mpr found.2)

theorem fields_eq_ok_iff {value : Value} (h : value.Distinct)
    {found : { fields : List Field // (fields.map Field.name).Nodup }} :
    (list field value).andThen distinct = .ok found ↔
      value.Same (.array (found.1.map Field.toValue)) := by
  simp only [Checked.andThen_eq_ok_iff, distinct_eq_ok_iff, exists_eq_right]
  exact list_field_eq_ok_iff h

/-- The members that the declaration of a schema may leave out. -/
def optionalNames : List Text := ["registry_name", "version_key", "description"]

/-- A schema is read from an object with its fields, with its texts where they are not missing, and
with nothing else. -/
theorem schema_object_eq_ok_iff {members : Record} (h : (Value.object members).Distinct)
    {found : Schema} :
    schema (.object members) = .ok found ↔
      (∃ value, members.lookup ("field_specs" : Text) = some value ∧ value.Same found.fieldsValue) ∧
      (members.lookup ("registry_name" : Text)).getD .null = Value.ofText? found.identity.registry ∧
      (members.lookup ("version_key" : Text)).getD .null = Value.ofText? found.identity.version ∧
      (members.lookup ("description" : Text)).getD .null = Value.ofText? found.description ∧
      ∀ name ∈ members.names, name ∈ ("field_specs" : Text) :: optionalNames := by
  obtain ⟨hnames, hmembers⟩ := Value.distinct_object_iff.mp h
  have hfields : ∀ fields : { fields : List Field // (fields.map Field.name).Nodup },
      required "field_specs" (fun value => (list field value).andThen distinct) members =
        .ok fields ↔ ∃ value, members.lookup ("field_specs" : Text) = some value ∧
          value.Same (.array (fields.1.map Field.toValue)) := by
    intro fields
    rw [required_eq_ok_iff]
    apply exists_congr
    intro value
    apply and_congr_right
    intro hvalue
    exact fields_eq_ok_iff (hmembers _ ((Entries.lookup_eq_some_iff_mem hnames).mp hvalue))
  simp only [schema, object, Checked.map_eq_ok_iff, Checked.both_eq_ok_iff, hfields,
    optional_optionalText_eq_ok_iff, noOthers_eq_ok_iff]
  constructor
  · rintro ⟨⟨fields, registry, version, description, ⟨⟩⟩, hparts, rfl⟩
    exact hparts
  · intro hparts
    exact ⟨(⟨found.fields, found.nodup⟩, found.identity.registry, found.identity.version,
      found.description, ()), hparts, rfl⟩

theorem schema_eq_ok {value : Value} {found : Schema} (h : schema value = .ok found) :
    ∃ members, value = .object members := by
  obtain ⟨members, hvalue, -⟩ := object_eq_ok_iff.mp h
  exact ⟨members, hvalue⟩

end Declaration

theorem Schema.ofValue_eq_ok_iff {value : Value} {found : Schema} :
    Schema.ofValue value = .ok found ↔ Declaration.schema value = .ok found := by
  rw [ofValue]
  cases Declaration.schema value <;> simp [Except.mapError]

end RecordRegistry
