import RecordRegistry.Proofs.Fingerprint
import RecordRegistry.Proofs.Text.Ascending
import RecordRegistry.Proofs.Verdict

/-!
# The shape of a schema as validation sees it

Three records are enough to tell two schemas of different shape apart: one without members, one
that has null under every name, and one that has a text under every name which no enum allows. The
first shows which fields are required, the second their order and what kind of type each of them
has, and the third the choices of the enums.
-/

namespace RecordRegistry

open Json (Value Record)

/-- A text that is longer than each of the given ones. -/
def Text.fresh (texts : List Text) : Text :=
  Text.ofList (List.replicate ((texts.flatMap Text.toList).length + 1) (.char 'x'))

theorem Text.fresh_not_mem (texts : List Text) : fresh texts ∉ texts := by
  intro h
  have hlength := (List.sublist_flatten_of_mem (List.mem_map_of_mem (f := Text.toList) h)).length_le
  rw [← List.flatMap_def, fresh, Text.toList_ofList, List.length_replicate] at hlength
  exact absurd hlength (Nat.not_succ_le_self _)

namespace Schema

/-- A record with one value under all the names of two schemas. -/
def uniform (a b : Schema) (value : Value) : Record :=
  (a.names ++ b.names).eraseDups.map (·, value)

/-- The records that are enough to tell two schemas apart. -/
def probes (a b : Schema) : List Record :=
  [[], uniform a b .null, uniform a b (.string (Text.fresh (a.choices ++ b.choices)))]

end Schema

/-- Null is a value of no type. -/
theorem BaseType.issue?_null (name : Text) (base : BaseType) :
    base.issue? name .null = some (.mismatch name base .null) := by
  rcases base with ⟨_ | _⟩ | choices <;> rfl

theorem BaseType.issue?_of_not_mem_choices {choices : Choices} {s : Text}
    (h : s ∉ (enum choices).choices) (name : Text) :
    (enum choices).issue? name (.string s) = some (.notAChoice name choices s) :=
  if_neg h

/-- A type is known from what is wrong with null and with a text that it does not allow: the first
tells what kind of type it is, the second the choices of an enum. -/
theorem BaseType.eq_of_issue? {a b : BaseType} {name s : Text}
    (hnull : a.issue? name .null = b.issue? name .null)
    (hs : a.issue? name (.string s) = b.issue? name (.string s))
    (ha : s ∉ a.choices) (hb : s ∉ b.choices) : a = b := by
  rw [issue?_null, issue?_null] at hnull
  have hmessage := congrArg Issue.message (Option.some.inj hnull)
  rcases a with ⟨_ | _⟩ | choices <;> rcases b with ⟨_ | _⟩ | others
  case enum.enum =>
    rw [issue?_of_not_mem_choices ha, issue?_of_not_mem_choices hb] at hs
    cases choices
    cases others
    cases congrArg Issue.allowed (Option.some.inj hs)
    rfl
  -- the messages are closed texts, and those of two kinds differ
  all_goals first
    | rfl
    | exact absurd hmessage (by simp only [Issue.mismatch, Value.schemaType]; decide)

namespace Field

/-- A field is known from its issues in three records. -/
theorem eq_of_issue? {a b : Field} {nulls texts : Record} {s : Text} (hname : a.name = b.name)
    (hempty : a.issue? [] = b.issue? []) (hnulls : nulls.lookup a.name = some .null)
    (hnull : a.issue? nulls = b.issue? nulls) (htexts : texts.lookup a.name = some (.string s))
    (htext : a.issue? texts = b.issue? texts) (ha : s ∉ a.type.base.choices)
    (hb : s ∉ b.type.base.choices) : a = b := by
  have hbase : a.type.base = b.type.base := by
    rw [issue?_of_lookup_eq_some hnulls, issue?_of_lookup_eq_some (hname ▸ hnulls),
      ← hname] at hnull
    rw [issue?_of_lookup_eq_some htexts, issue?_of_lookup_eq_some (hname ▸ htexts),
      ← hname] at htext
    exact BaseType.eq_of_issue? hnull htext ha hb
  have hrequired : a.required = b.required := by
    rw [issue?_of_lookup_eq_none rfl, issue?_of_lookup_eq_none rfl] at hempty
    cases hfirst : a.required <;> cases hsecond : b.required <;> simp_all
  obtain ⟨name, hne, type⟩ := a
  obtain ⟨name', hne', type'⟩ := b
  cases hname
  have htype : type = type' := by
    cases type <;> cases type' <;> simp_all [FieldType.base, required]
  cases htype
  rfl

end Field

namespace Schema

variable {a b : Schema}

/-- The issue of a field is the only one of its name. -/
theorem find?_filterMap_issue? {fields : List Field} (hnodup : (fields.map Field.name).Nodup)
    {field : Field} (h : field ∈ fields) (record : Record) :
    (fields.filterMap (Field.issue? record)).find? (·.field = field.name) =
      field.issue? record := by
  induction fields with
  | nil => cases h
  | cons first rest ih =>
      rw [List.map_cons, List.nodup_cons] at hnodup
      rcases List.mem_cons.mp h with rfl | hrest
      · cases hissue : field.issue? record with
        | none =>
            rw [List.filterMap_cons_none hissue, List.find?_eq_none]
            intro issue hmem
            have hname := (fields_filterMap_sublist rest record).subset
              (List.mem_map_of_mem hmem)
            simpa using fun heq : issue.field = field.name => hnodup.1 (heq ▸ hname)
        | some issue =>
            rw [List.filterMap_cons_some hissue,
              List.find?_cons_of_pos (by simpa using Field.field_of_issue? hissue)]
      · have hne : first.name ≠ field.name := by
          intro heq
          exact hnodup.1 (heq ▸ List.mem_map_of_mem hrest)
        cases hissue : first.issue? record with
        | none =>
            rw [List.filterMap_cons_none hissue]
            exact ih hnodup.2 hrest
        | some issue =>
            rw [List.filterMap_cons_some hissue,
              List.find?_cons_of_neg (by simpa [Field.field_of_issue? hissue] using hne)]
            exact ih hnodup.2 hrest

/-- Where all issues agree, those of fields with one name do. -/
theorem issue?_eq_of_issues_eq {record : Record}
    (h : a.issues .ignore record = b.issues .ignore record) {first second : Field}
    (hfirst : first ∈ a.fields) (hsecond : second ∈ b.fields) (hname : first.name = second.name) :
    first.issue? record = second.issue? record := by
  rw [issues_ignore, issues_ignore] at h
  rw [← find?_filterMap_issue? a.nodup hfirst, ← find?_filterMap_issue? b.nodup hsecond, h, hname]

theorem names_uniform (a b : Schema) (value : Value) :
    (uniform a b value).names = (a.names ++ b.names).eraseDups := by
  simp [uniform, Entries.names, Function.comp_def]

theorem nodup_names_uniform (a b : Schema) (value : Value) :
    (uniform a b value).names.Nodup := by
  rw [names_uniform]
  exact Text.nodup_eraseDups _

theorem lookup_uniform {name : Text} (h : name ∈ a.names ∨ name ∈ b.names) (value : Value) :
    (uniform a b value).lookup name = some value := by
  rw [Entries.lookup_eq_some_iff_mem (nodup_names_uniform a b value), uniform]
  exact List.mem_map_of_mem (List.mem_eraseDups.mpr (List.mem_append.mpr h))

/-- Null is a value of no type, so that every field of its name has an issue. -/
theorem map_field_issues_null {schema : Schema} {record : Record}
    (h : ∀ name ∈ schema.names, record.lookup name = some .null) :
    (schema.issues .ignore record).map Issue.field = schema.names := by
  have hissue (field : Field) (hfield : field ∈ schema.fields) :
      field.issue? record = some (.mismatch field.name field.type.base .null) := by
    rw [Field.issue?_of_lookup_eq_some (h field.name (List.mem_map_of_mem hfield)),
      BaseType.issue?_null]
  rw [issues_ignore, List.filterMap_congr hissue, names, List.filterMap_eq_map', List.map_map]
  rfl

/-- Schemas for which the same is wrong with the three records have the same fields. -/
theorem fields_eq_of_probes
    (h : ∀ record ∈ probes a b, a.issues .ignore record = b.issues .ignore record) :
    a.fields = b.fields := by
  simp only [probes, List.forall_mem_cons, List.not_mem_nil, false_imp_iff, imp_true_iff,
    and_true] at h
  obtain ⟨hempty, hnull, htext⟩ := h
  have hnames : a.names = b.names := by
    rw [← map_field_issues_null fun name hname => lookup_uniform (b := b) (.inl hname) .null,
      ← map_field_issues_null fun name hname => lookup_uniform (a := a) (.inr hname) .null, hnull]
  have hfresh := Text.fresh_not_mem (a.choices ++ b.choices)
  rw [List.mem_append, not_or] at hfresh
  have hfield {first second : Field} (hfirst : first ∈ a.fields) (hsecond : second ∈ b.fields)
      (hname : first.name = second.name) : first = second := by
    have hlookup (value : Value) := lookup_uniform (b := b) (.inl (List.mem_map_of_mem hfirst)) value
    refine Field.eq_of_issue? hname (issue?_eq_of_issues_eq hempty hfirst hsecond hname)
      (hlookup .null) (issue?_eq_of_issues_eq hnull hfirst hsecond hname) (hlookup _)
      (issue?_eq_of_issues_eq htext hfirst hsecond hname) ?_ ?_
    · exact fun hmem => hfresh.1 (List.mem_flatMap.mpr ⟨first, hfirst, hmem⟩)
    · exact fun hmem => hfresh.2 (List.mem_flatMap.mpr ⟨second, hsecond, hmem⟩)
  have hlength : a.fields.length = b.fields.length := by
    simpa [names] using congrArg List.length hnames
  refine List.ext_getElem hlength fun i ha hb => hfield (List.getElem_mem ha) (List.getElem_mem hb) ?_
  have hname : a.names[i]? = b.names[i]? := by rw [hnames]
  simpa [names, ha, hb] using hname

/--
The shape of a schema is what validation can observe of it.  Two schemas have the same shape exactly
when they find the same issues in every record, and three records with distinct names are enough to
see whether they do.
-/
theorem issues_eq_iff_sameShape (a b : Schema) :
    ((∀ record : Record, record.names.Nodup →
        a.issues .ignore record = b.issues .ignore record) ↔ a.sameShape b = true) ∧
      ((∀ record ∈ probes a b, a.issues .ignore record = b.issues .ignore record) ↔
        a.sameShape b = true) ∧
      ∀ record ∈ probes a b, record.names.Nodup := by
  have hdistinct : ∀ record ∈ probes a b, record.names.Nodup := by
    simp only [probes, List.forall_mem_cons, List.not_mem_nil, false_imp_iff, imp_true_iff, and_true]
    exact ⟨List.nodup_nil, nodup_names_uniform a b _, nodup_names_uniform a b _⟩
  have hprobes (h : ∀ record ∈ probes a b, a.issues .ignore record = b.issues .ignore record) :
      a.sameShape b = true := decide_eq_true (fields_eq_of_probes h)
  have hissues (h : a.sameShape b = true) (record : Record) :
      a.issues .ignore record = b.issues .ignore record := by
    rw [issues_ignore, issues_ignore, of_decide_eq_true h]
  refine ⟨⟨?_, fun h record _ => hissues h record⟩, ⟨hprobes, fun h record _ => hissues h record⟩,
    hdistinct⟩
  intro h
  exact hprobes fun record hrecord => h record (hdistinct record hrecord)

end Schema

end RecordRegistry
