import RecordRegistry.Proofs.Load.Decoded
import RecordRegistry.Proofs.Report.Partition
import RecordRegistry.Proofs.Verdict

/-!
# Written reports

A report on rows of JSON is read back from its canonical text. The records in it come back up to the
order of their members, but for numbers that are not finite: null stands for these, so that a record
with one neither comes back nor is valid any longer.
-/

namespace RecordRegistry

open Json (Value Record)

namespace Json.Value

theorem finiteItems_map (items : List Value) : finiteItems items = items.map finiteOnly := by
  induction items with
  | nil => rfl
  | cons item items ih => rw [finiteItems, ih, List.map_cons]

theorem finiteMembers_map (members : List (Text × Value)) :
    finiteMembers members = members.map fun member => (member.1, member.2.finiteOnly) := by
  induction members with
  | nil => rfl
  | cons member members ih => rw [finiteMembers, ih, List.map_cons]

/-- Null in the place of numbers leaves a value legible. -/
theorem Legible.finiteOnly {v : Value} (h : v.Legible) : v.finiteOnly.Legible := by
  induction h with
  | null => exact .null
  | bool b => exact .bool b
  | int hlength => exact .int hlength
  | @real x hread =>
      rw [Value.finiteOnly]
      split
      · exact .real hread
      · exact .null
  | string s => exact .string s
  | array _ ih =>
      rw [Value.finiteOnly, finiteItems_map]
      exact .array (List.forall_mem_map.mpr ih)
  | object hnames _ ih =>
      rw [Value.finiteOnly, finiteMembers_map]
      refine .object ?_ (List.forall_mem_map.mpr ih)
      rwa [Entries.names, List.map_map]

end Json.Value

theorem Issue.legible_toValue (issue : Issue) : issue.toValue.Legible := by
  have hallowed : (issue.allowed.elim .null Value.ofTexts).Legible := by
    cases issue.allowed with
    | none => exact .null
    | some values => exact Value.legible_ofTexts values
  apply Value.Legible.object
  · simp [Entries.names]
  · simp [hallowed, Value.legible_ofText?, Value.Legible.string]

theorem Failure.legible_toValue (failure : Failure) : failure.toValue.Legible := by
  have hissues : (Value.array (failure.issues.map Issue.toValue)).Legible :=
    .array (List.forall_mem_map.mpr fun issue _ => issue.legible_toValue)
  apply Value.Legible.object
  · simp [Entries.names]
  · simp [hissues, Value.legible_ofText?]

theorem ValidRecord.legible_toValue {record : ValidRecord}
    (h : (Value.object record.values).Legible) : record.toValue.Legible := by
  apply Value.Legible.object
  · simp [Entries.names]
  · simp [h.finiteOnly, Value.legible_ofText?]

theorem Report.legible_toValue {report : Report}
    (htotal : report.total < 10 ^ Json.digitLimit)
    (haccepted : ∀ record ∈ report.accepted, (Value.object record.values).Legible)
    (hrejected : ∀ rejection ∈ report.rejected, rejection.index < 10 ^ Json.digitLimit) :
    report.toValue.Legible := by
  have hcount {n : Nat} (h : n < 10 ^ Json.digitLimit) : (Value.int n).Legible :=
    .int ((Nat.length_toDigits_le_iff (by decide) (by decide)).mpr h)
  have haccepted : (Value.array (report.accepted.map ValidRecord.toValue)).Legible :=
    .array (List.forall_mem_map.mpr fun record hrecord =>
      ValidRecord.legible_toValue (haccepted record hrecord))
  have hrejected : (Value.array (report.rejected.map fun rejection =>
      .object [("index", .int rejection.index), ("failure", rejection.failure.toValue)])).Legible :=
    .array (List.forall_mem_map.mpr fun rejection hrejection =>
      Value.legible_pair (by decide) (hcount (hrejected rejection hrejection))
        rejection.failure.legible_toValue)
  apply Value.Legible.object
  · simp [Entries.names]
  · simp [haccepted, hrejected, hcount htotal, Value.legible_ofText?]

/-- A record without numbers that are not finite. -/
def ValidRecord.IsFinite (record : ValidRecord) : Prop :=
  ∀ name x, (name, Value.real x) ∈ record.values → x.isFinite = true

/-- The values of a record as they are read back: with null for numbers that are not finite, and in
the order of their names. -/
def ValidRecord.reread (record : ValidRecord) : Record :=
  (record.values.map fun member => (member.1, member.2.finiteOnly.sorted)).mergeSort
    fun a b => a.1 ≤ b.1

theorem ValidRecord.sorted_finiteOnly (record : ValidRecord) :
    (Value.object record.values).finiteOnly.sorted = .object record.reread := by
  rw [Value.finiteOnly, Json.Value.finiteMembers_map, Value.sorted, Value.sortedMembers_map,
    List.map_map]
  rfl

theorem ValidRecord.nodup_names_reread (record : ValidRecord)
    (hnames : record.values.names.Nodup) : record.reread.names.Nodup := by
  rw [reread, Entries.names, ((List.mergeSort_perm _ _).map _).nodup_iff, List.map_map]
  exact hnames

theorem ValidRecord.lookup_reread (record : ValidRecord) (hnames : record.values.names.Nodup)
    (name : Text) :
    record.reread.lookup name =
      (record.values.lookup name).map fun value => value.finiteOnly.sorted := by
  have hmap := Entries.lookup_map_snd (fun value : Value => value.finiteOnly.sorted) record.values
    name
  rw [reread, Entries.lookup_mergeSort, hmap]
  rwa [Entries.names, List.map_map]

/-- A value of a type stays what it is when it is written and read back, unless it is a number that
is not finite: null is of no type. -/
theorem BaseType.issue?_finiteOnly_eq_none_iff {name : Text} {base : BaseType} {value : Value}
    (h : base.issue? name value = none) :
    base.issue? name value.finiteOnly.sorted = none ↔ ∀ x, value = .real x → x.isFinite = true := by
  have hfits := ((BaseType.issue?_eq_none_iff name base value).mp h).1
  cases hfits with
  | text s => simp [Value.finiteOnly, Value.sorted, h]
  | int n => simp [Value.finiteOnly, Value.sorted, h]
  | choice choices s => simp [Value.finiteOnly, Value.sorted, h]
  | @real x hx =>
      cases hfinite : x.isFinite with
      | true => simp [Value.finiteOnly, Value.sorted, h, hfinite]
      | false => simp [Value.finiteOnly, Value.sorted, hfinite, BaseType.issue?, Primitive.holds]

/-- Values of a type hold no number below the top, so that none is replaced there. -/
theorem BaseType.Fits.finiteOnly_eq {base : BaseType} {value : Value} (h : base.Fits value)
    (hfinite : ∀ x, value = .real x → x.isFinite = true) : value.finiteOnly = value := by
  cases h with
  | text | int | choice => rfl
  | @real x => rw [Value.finiteOnly, if_pos (hfinite x rfl)]

namespace Schema

variable {schema : Schema} {mode : UnknownFields} {row : Record}

theorem legible_project (h : (Value.object row).Legible) :
    (Value.object (schema.project row)).Legible := by
  cases h with
  | object hnames hmembers =>
      apply Value.Legible.object (schema.nodup_names_project row)
      rintro ⟨name, value⟩ hmember
      exact hmembers _ ((schema.mem_project_iff hnames name value).mp hmember).2

/-- A field of an accepted record has no issue in what is read back, unless its value is a number
that is not finite. -/
theorem issue?_reread_eq_none_iff {field : Field} (hfield : field ∈ schema.fields)
    (hissue : field.issue? row = none) :
    field.issue? (ValidRecord.reread ⟨schema.identity, schema.project row⟩) = none ↔
      ∀ x, (field.name, Value.real x) ∈ schema.project row → x.isFinite = true := by
  have hproject := schema.nodup_names_project row
  have hlookup := lookup_project (List.mem_map_of_mem (f := Field.name) hfield) row
  have hreread := ValidRecord.lookup_reread ⟨schema.identity, schema.project row⟩ hproject
    field.name
  simp only [← Entries.lookup_eq_some_iff_mem hproject]
  rw [hlookup] at hreread ⊢
  cases hvalue : row.lookup field.name with
  | none =>
      rw [hvalue] at hreread
      rw [Field.issue?_of_lookup_eq_none hvalue] at hissue
      rw [Field.issue?_of_lookup_eq_none hreread, hissue]
      simp
  | some value =>
      rw [hvalue] at hreread
      rw [Field.issue?_of_lookup_eq_some hvalue] at hissue
      rw [Field.issue?_of_lookup_eq_some hreread, BaseType.issue?_finiteOnly_eq_none_iff hissue]
      simp

/-- What is read back of an accepted record is valid when none of its numbers became null. -/
theorem issues_reread_eq_nil_iff (h : schema.issues mode row = []) :
    schema.issues .reject (ValidRecord.reread ⟨schema.identity, schema.project row⟩) = [] ↔
      ValidRecord.IsFinite ⟨schema.identity, schema.project row⟩ := by
  have hnamed {name : Text} {value : Value} (hmember : (name, value) ∈ schema.project row) :
      name ∈ schema.names :=
    (schema.names_project_sublist row).subset (List.mem_map_of_mem hmember)
  have hdeclared : ∀ member ∈ ValidRecord.reread ⟨schema.identity, schema.project row⟩,
      member.1 ∈ schema.names := by
    intro member hmember
    obtain ⟨old, hold, rfl⟩ := List.mem_map.mp (List.mem_mergeSort.mp hmember)
    exact hnamed hold
  have hfields := ((schema.issues_eq_nil_iff mode row).mp h).1
  rw [issues_eq_nil_iff, and_iff_left (.inr hdeclared)]
  constructor
  · intro hreread name x hmember
    obtain ⟨field, hfield, rfl⟩ := List.mem_map.mp (hnamed hmember)
    exact (issue?_reread_eq_none_iff hfield (hfields field hfield)).mp
      (hreread field hfield) x hmember
  · intro hfinite field hfield
    exact (issue?_reread_eq_none_iff hfield (hfields field hfield)).mpr (hfinite field.name)

/-- A report on rows of JSON is legible as long as its counts are. -/
theorem legible_report (schema : Schema) (mode : UnknownFields) {rows : List Record}
    (hrows : ∀ row ∈ rows, (Value.object row).Legible)
    (hcount : rows.length < 10 ^ Json.digitLimit) :
    (schema.report mode rows).toValue.Legible := by
  apply Report.legible_toValue
  · simpa [report, Report.ofOutcomes] using hcount
  · intro record hrecord
    obtain ⟨row, hrow, hvalidate⟩ := mem_accepted_report hrecord
    obtain ⟨-, rfl⟩ := validate_eq_accepted_iff.mp hvalidate
    exact legible_project (hrows row hrow)
  · rintro ⟨index, failure⟩ hrejection
    have houtcome := (Report.mem_rejections_iff 0 index failure _).mp
      (by rwa [Nat.zero_add])
    obtain ⟨hindex, -⟩ := List.getElem?_eq_some_iff.mp houtcome
    rw [List.length_map] at hindex
    exact hindex.trans hcount

/-- The values of an accepted record are of the types of their fields, so that null stands for a
number in the record itself or nowhere. -/
theorem finiteOnly_of_isFinite (hnames : row.names.Nodup) (h : schema.issues mode row = [])
    (hfinite : ValidRecord.IsFinite ⟨schema.identity, schema.project row⟩) :
    (Value.object (schema.project row)).finiteOnly = .object (schema.project row) := by
  have hvalue : ∀ member ∈ schema.project row, (member.1, member.2.finiteOnly) = member := by
    rintro ⟨name, value⟩ hmember
    obtain ⟨hname, hrow⟩ := (schema.mem_project_iff hnames name value).mp hmember
    obtain ⟨field, hfield, rfl⟩ := List.mem_map.mp hname
    have hissue := ((schema.issues_eq_nil_iff mode row).mp h).1 field hfield
    rw [← Entries.lookup_eq_some_iff_mem hnames] at hrow
    rw [Field.issue?_of_lookup_eq_some hrow] at hissue
    rw [((BaseType.issue?_eq_none_iff _ _ _).mp hissue).1.finiteOnly_eq]
    rintro x rfl
    exact hfinite field.name x hmember
  rw [Value.finiteOnly, Json.Value.finiteMembers_map, List.map_congr_left hvalue, List.map_id']

/-- An accepted record comes back when all its numbers are finite, and only then. -/
theorem same_reread_iff (hnames : row.names.Nodup) (h : schema.issues mode row = []) :
    Value.Same (.object (ValidRecord.reread ⟨schema.identity, schema.project row⟩))
        (.object (schema.project row)) ↔
      ValidRecord.IsFinite ⟨schema.identity, schema.project row⟩ := by
  have hproject := schema.nodup_names_project row
  have hreread := ValidRecord.sorted_finiteOnly ⟨schema.identity, schema.project row⟩
  constructor
  · intro hsame name x hmember
    have hnodup := ValidRecord.nodup_names_reread ⟨schema.identity, schema.project row⟩ hproject
    obtain ⟨-, hvalues⟩ := (Value.same_object_iff hnodup hproject).mp hsame
    obtain ⟨value, hmem, hvalue⟩ := hvalues _ hmember
    have hlookup := ValidRecord.lookup_reread ⟨schema.identity, schema.project row⟩ hproject name
    rw [← Entries.lookup_eq_some_iff_mem hnodup, hlookup,
      (Entries.lookup_eq_some_iff_mem hproject).mpr hmember] at hmem
    obtain rfl := Option.some.inj hmem
    simp only [Value.finiteOnly] at hvalue
    split at hvalue
    · assumption
    · cases hvalue
  · intro hfinite
    have hsame := Value.same_sorted (Value.object (schema.project row)).finiteOnly
    rw [hreread, finiteOnly_of_isFinite hnames h hfinite] at hsame
    exact hsame

/-- An accepted record as it is read back, when the row it came from has distinct names. -/
theorem sorted_toValue_of_accepted (hnames : row.names.Nodup) {record : ValidRecord}
    (haccepted : schema.validate mode row = .accepted record) :
    ∃ fields values, record.toValue.sorted = .object fields ∧
      fields.lookup ("values" : Text) = some (.object values) ∧
      Value.Same (.object values) (Value.object record.values).finiteOnly ∧
      (Value.Same (.object values) (.object record.values) ↔ record.IsFinite) ∧
      ((schema.validate .reject values).ok = true ↔ record.IsFinite) := by
  obtain ⟨hissues, rfl⟩ := validate_eq_accepted_iff.mp haccepted
  obtain ⟨fields, hfields, hlookup⟩ := Value.exists_sorted_object [
    ("registry_name", Value.ofText? schema.identity.registry),
    ("version_key", Value.ofText? schema.identity.version),
    ("values", (Value.object (schema.project row)).finiteOnly)] (by simp [Entries.names])
  have hreread := ValidRecord.sorted_finiteOnly ⟨schema.identity, schema.project row⟩
  have hsame := Value.same_sorted (Value.object (schema.project row)).finiteOnly
  rw [hreread] at hsame
  refine ⟨fields, _, hfields, ?_, hsame, same_reread_iff hnames hissues, ?_⟩
  · rw [hlookup, ← hreread]
    rfl
  · rw [ok_validate_iff, issues_reread_eq_nil_iff hissues]

end Schema

end RecordRegistry

namespace RecordRegistry.WrittenWitness

open Json (Value Record)

def schema : Schema where
  fields := [⟨"span", by decide, .plain (.primitive .number)⟩]
  nodup := by decide
  identity := .unknown
  description := none

def row : Record := [("span", .real (.infinity false))]

def text : List CodePoint :=
  ['[', '\x7b', '\x22', 's', 'p', 'a', 'n', '\x22', ':', 'I', 'n', 'f', 'i', 'n', 'i', 't', 'y',
    '\x7d', ']']

theorem decoded_row : ∀ other ∈ [row], Rows.Decoded other := by
  intro other hother
  rw [List.mem_singleton.mp hother]
  exact ⟨text, [row], rfl, List.mem_singleton_self _⟩

theorem length_rows : [row].length < 10 ^ Json.digitLimit := Nat.one_lt_pow (by decide) (by decide)

/-- Infinity is a number for the schema, but null stands for it in the report. -/
theorem toValue_report :
    (schema.report .ignore [row]).toValue = .object [
      ("registry_name", .null), ("version_key", .null), ("total", .int 1),
      ("accepted", .array [.object [("registry_name", .null), ("version_key", .null),
        ("values", .object [("span", .null)])]]),
      ("rejected", .array [])] := by
  rfl

end RecordRegistry.WrittenWitness
