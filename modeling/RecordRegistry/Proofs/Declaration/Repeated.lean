import RecordRegistry.Proofs.Declaration.Reading
import RecordRegistry.Proofs.Text.Ascending

/-!
# Repeated choices and names

An enum that repeats a choice is refused, and so is a schema of text fields that repeats a name. The
refusal lists exactly the repeated texts, and where nothing is repeated the texts are kept in their
order.
-/

namespace RecordRegistry

open Json (Value Record)
open Text (Sightings)

/-- A list of the texts that occur at least twice among others. They stand in strictly ascending
order, so each of them stands there once. -/
structure Text.Repeats (listed texts : List Text) : Prop where
  mem_iff (text : Text) : text ∈ listed ↔ 2 ≤ texts.count text
  ascending : listed.Pairwise (· < ·)

theorem Text.exists_two_le_count_iff {texts : List Text} :
    (∃ text, 2 ≤ texts.count text) ↔ ¬ texts.Nodup := by
  rw [List.nodup_iff_count]
  simp [Nat.lt_iff_add_one_le]

namespace Declaration

variable {texts : List Text}

/-- What is listed as repeated is. -/
theorem repeats_repeated (texts : List Text) : Text.Repeats (repeated texts) texts where
  mem_iff text := by
    rw [repeated, List.mem_mergeSort]
    exact (Sightings.tells_ofTexts texts).repeated text
  ascending := Text.pairwise_lt_mergeSort (Sightings.tells_ofTexts texts).nodup

/-- The checks of an array of choices: it must have one, and then none twice. -/
theorem choices_ofTexts_cases (texts : List Text) :
    texts = [] ∧ choices (Value.ofTexts texts) = .fail .noChoices ∨
      ¬ texts.Nodup ∧ choices (Value.ofTexts texts) = .fail (.repeatedChoices (repeated texts)) ∨
      ∃ found : Choices, choices (Value.ofTexts texts) = .ok found ∧ found.values = texts := by
  have hlist : list text (Value.ofTexts texts) = .ok texts := list_text_eq_ok_iff.mpr rfl
  by_cases hne : texts = []
  · refine .inl ⟨hne, ?_⟩
    rw [choices, hlist, Checked.andThen, dif_pos hne]
  · refine .inr ?_
    by_cases hnodup : texts.Nodup
    · exact .inr ⟨⟨texts, hne, hnodup⟩, choices_eq_ok_iff.mpr rfl, rfl⟩
    · refine .inl ⟨hnodup, ?_⟩
      rw [choices, hlist, Checked.andThen, dif_neg hne,
        dif_neg (Sightings.repeated_ofTexts_eq_nil_iff.not.mpr hnodup)]

/-- The check of the names of fields. -/
theorem distinct_cases (fields : List Field) :
    ¬ (fields.map Field.name).Nodup ∧
        distinct fields = .fail (.repeatedNames (repeated (fields.map Field.name))) ∨
      ∃ found, distinct fields = .ok found ∧ found.1 = fields := by
  by_cases hnodup : (fields.map Field.name).Nodup
  · exact .inr ⟨⟨fields, hnodup⟩, distinct_eq_ok_iff.mpr rfl, rfl⟩
  · refine .inl ⟨hnodup, ?_⟩
    rw [distinct, dif_neg (Sightings.repeated_ofTexts_eq_nil_iff.not.mpr hnodup)]

/-- An enum of the right kind and without other members has the problems of its choices alone. -/
theorem enumType_eq {members : Record} {allowed : Value}
    (hallowed : members.lookup ("allowed" : Text) = some allowed)
    (hkind : ∀ value, members.lookup ("kind" : Text) = some value → value = .string "enum")
    (hothers : ∀ name ∈ members.names, name = "kind" ∨ name = "allowed") :
    enumType members = ((choices allowed).within (.key "allowed")).map .enum :=
  tagged_eq hallowed hkind hothers

end Declaration

open Declaration

/-- A check of texts that refuses repeated ones: it does so exactly when there are some, its refusal
lists them, what is otherwise proper it accepts, and whatever it accepts keeps the texts. -/
structure RefusesRepeats {α : Type} (texts : List Text) (proper : Prop)
    (refusal : List Text → Refusal) (Keeps : α → Prop) (result : Except Refusal α) : Prop where
  refused_iff : (∃ listed, result = .error (refusal listed)) ↔ ∃ text, 2 ≤ texts.count text
  listed (listed : List Text) : result = .error (refusal listed) → Text.Repeats listed texts
  accepted_iff : (∃ a, result = .ok a) ↔ proper ∧ texts.Nodup
  kept (a : α) : result = .ok a → Keeps a

namespace RefusesRepeats

variable {α : Type} {texts : List Text} {proper : Prop} {refusal : List Text → Refusal}
variable {Keeps : α → Prop}

theorem of_repeated (hinj : ∀ {a b}, refusal a = refusal b → a = b) (h : ¬ texts.Nodup) :
    RefusesRepeats texts proper refusal Keeps (.error (refusal (repeated texts))) where
  refused_iff := iff_of_true ⟨_, rfl⟩ (Text.exists_two_le_count_iff.mpr h)
  listed listed heq := by
    rw [← hinj (Except.error.inj heq)]
    exact repeats_repeated texts
  accepted_iff := iff_of_false (by simp) fun hproper => h hproper.2
  kept _ heq := by cases heq

theorem of_improper {other : Refusal} (hother : ∀ listed, other ≠ refusal listed)
    (h : texts.Nodup) (hproper : ¬ proper) :
    RefusesRepeats texts proper refusal Keeps (.error other) where
  refused_iff := by
    rw [Text.exists_two_le_count_iff]
    refine iff_of_false ?_ (not_not.mpr h)
    rintro ⟨listed, heq⟩
    exact hother listed (Except.error.inj heq)
  listed listed heq := absurd (Except.error.inj heq) (hother listed)
  accepted_iff := iff_of_false (by simp) fun h => hproper h.1
  kept _ heq := by cases heq

theorem of_kept {a : α} (ha : Keeps a) (h : texts.Nodup) (hproper : proper) :
    RefusesRepeats texts proper refusal Keeps (.ok a) where
  refused_iff := by
    rw [Text.exists_two_le_count_iff]
    exact iff_of_false (by simp) (not_not.mpr h)
  listed _ heq := by cases heq
  accepted_iff := iff_of_true ⟨a, rfl⟩ ⟨hproper, h⟩
  kept _ heq := Except.ok.inj heq ▸ ha

end RefusesRepeats

namespace BaseType

/-- The refusal of an enum for its repeated choices. -/
def repeatedChoices (listed : List Text) : Refusal :=
  ⟨"EnumType", [⟨[.key "allowed"], .repeatedChoices listed⟩]⟩

/-- A type is the enum of the given choices, in their order. -/
def IsEnumOf (texts : List Text) (type : BaseType) : Prop :=
  ∃ choices : Choices, type = .enum choices ∧ choices.values = texts

theorem refusesRepeats_enumOfValue {members : Record} {texts : List Text}
    (hallowed : members.lookup ("allowed" : Text) = some (Value.ofTexts texts))
    (hkind : ∀ value, members.lookup ("kind" : Text) = some value → value = .string "enum")
    (hothers : ∀ name ∈ members.names, name = "kind" ∨ name = "allowed") :
    RefusesRepeats texts (texts ≠ []) repeatedChoices (IsEnumOf texts)
      (enumOfValue (.object members)) := by
  rw [enumOfValue, object, enumType_eq hallowed hkind hothers]
  rcases choices_ofTexts_cases texts with
    ⟨rfl, hchoices⟩ | ⟨hnodup, hchoices⟩ | ⟨found, hchoices, rfl⟩ <;> rw [hchoices]
  · exact .of_improper (by simp [repeatedChoices]) List.nodup_nil (by simp)
  · exact .of_repeated (by simp [repeatedChoices]) hnodup
  · exact .of_kept ⟨found, rfl, rfl⟩ found.nodup found.values_ne_nil

end BaseType

namespace Schema

/-- The refusal of a schema for its repeated names. -/
def repeatedNames (listed : List Text) : Refusal :=
  ⟨"RecordSpec", [⟨[.key "field_specs"], .repeatedNames listed⟩]⟩

/-- The refusal of a field for its empty name. -/
def emptyName : Refusal := ⟨"FieldSpec", [⟨[.key "name"], .emptyName⟩]⟩

/-- A schema needs exactly the given fields, in their order. -/
def IsRequiredOf (texts : List Text) (schema : Schema) : Prop :=
  schema.names = texts ∧ schema.requiredNames = texts

theorem ofName_string {name : Text} (h : name ≠ "") :
    Field.ofName (.string name) = .ok ⟨name, h, .plain (.primitive .string)⟩ := by
  have hname : fieldName (.string name) = .ok ⟨name, h⟩ := fieldName_eq_ok_iff.mpr rfl
  rw [Field.ofName, hname]
  rfl

/-- Names that are not empty give required fields of these names, in order. -/
theorem mapM_ofName_eq_ok {names : List Text} (h : ("" : Text) ∉ names) :
    ∃ fields, (names.map Value.string).mapM Field.ofName = .ok fields ∧
      fields.map Field.name = names ∧ ∀ field ∈ fields, field.required = true := by
  induction names with
  | nil => exact ⟨[], rfl, rfl, by simp⟩
  | cons name names ih =>
      have hname : name ≠ "" := fun heq => h (heq ▸ List.mem_cons_self)
      obtain ⟨fields, hfields, hmap, hrequired⟩ := ih fun hmem => h (List.mem_cons_of_mem _ hmem)
      refine ⟨⟨name, hname, .plain (.primitive .string)⟩ :: fields, ?_, ?_, ?_⟩
      · rw [List.map_cons, List.mapM_cons, ofName_string hname, hfields]
        rfl
      · rw [List.map_cons, hmap]
      · simpa [Field.required] using hrequired

/-- The first empty name is the only one that is told of. -/
theorem mapM_ofName_eq_error {names : List Text} (h : ("" : Text) ∈ names) :
    (names.map Value.string).mapM Field.ofName = .error emptyName := by
  induction names with
  | nil => cases h
  | cons name names ih =>
      rw [List.map_cons, List.mapM_cons]
      by_cases hname : name = ""
      · subst hname
        rfl
      · rw [ih ((List.mem_cons.mp h).resolve_left (Ne.symm hname)), ofName_string hname]
        rfl

theorem refusesRepeats_ofNames {texts : List Text} (hempty : ("" : Text) ∉ texts)
    (description : Option Text) :
    RefusesRepeats texts True repeatedNames (IsRequiredOf texts)
      (ofNames (texts.map .string) (Value.ofText? description)) := by
  obtain ⟨fields, hfields, rfl, hrequired⟩ := mapM_ofName_eq_ok hempty
  have htext : optionalText (Value.ofText? description) = .ok description :=
    optionalText_eq_ok_iff.mpr rfl
  rw [ofNames, hfields, htext]
  rcases distinct_cases fields with ⟨hnodup, hdistinct⟩ | ⟨⟨found, hnodup⟩, hdistinct, rfl⟩ <;>
    simp only [hdistinct]
  · exact .of_repeated (by simp [repeatedNames]) hnodup
  · refine .of_kept ⟨rfl, ?_⟩ hnodup trivial
    exact congrArg (List.map Field.name) (List.filter_eq_self.mpr hrequired)

theorem ofNames_of_empty {texts : List Text} (hempty : ("" : Text) ∈ texts) (description : Value) :
    ofNames (texts.map .string) description = .error emptyName := by
  rw [ofNames, mapM_ofName_eq_error hempty]

/--
An enum refuses choices of which some come twice, and a schema of text fields refuses such names.
The refusal lists the repeated texts, each once and in ascending order, and what is accepted keeps
all texts in their order.  An empty name is refused before any name is looked at twice.
-/
theorem repeats_refused {members : Record} {texts : List Text}
    (hallowed : members.lookup ("allowed" : Text) = some (Value.ofTexts texts))
    (hkind : ∀ value, members.lookup ("kind" : Text) = some value → value = .string "enum")
    (hothers : ∀ name ∈ members.names, name = "kind" ∨ name = "allowed")
    (description : Option Text) :
    RefusesRepeats texts (texts ≠ []) BaseType.repeatedChoices (BaseType.IsEnumOf texts)
      (BaseType.enumOfValue (.object members)) ∧
    (("" : Text) ∉ texts → RefusesRepeats texts True repeatedNames (IsRequiredOf texts)
      (ofNames (texts.map .string) (Value.ofText? description))) ∧
    (("" : Text) ∈ texts →
      ofNames (texts.map .string) (Value.ofText? description) = .error emptyName) :=
  ⟨BaseType.refusesRepeats_enumOfValue hallowed hkind hothers,
    fun hempty => refusesRepeats_ofNames hempty description,
    fun hempty => ofNames_of_empty hempty _⟩

end Schema

end RecordRegistry

namespace RecordRegistry.RepeatedWitness

open Json (Value)

/-- Two of the texts come more than once, one of them three times. -/
def texts : List Text := ["wool", "silk", "jute", "wool", "silk", "wool"]

def members : Json.Record := [("kind", .string "enum"), ("allowed", Value.ofTexts texts)]

/-- As choices and as names the texts are refused, and only those that come again are listed. -/
theorem texts_refused :
    (∃ listed, BaseType.enumOfValue (.object members) =
      .error (BaseType.repeatedChoices listed) ∧
      ("wool" : Text) ∈ listed ∧ ("jute" : Text) ∉ listed) ∧
    ∃ listed, Schema.ofNames (texts.map .string) .null = .error (Schema.repeatedNames listed) := by
  have hkind : ∀ value, members.lookup ("kind" : Text) = some value → value = .string "enum" :=
    fun value h => (Option.some.inj h).symm
  have hothers : ∀ name ∈ members.names, name = "kind" ∨ name = "allowed" := by
    simp [members, Entries.names]
  obtain ⟨hchoices, hnames, -⟩ := Schema.repeats_refused rfl hkind hothers none
  obtain ⟨listed, hlisted⟩ := hchoices.refused_iff.mpr ⟨"wool", by decide⟩
  have hmem := (hchoices.listed listed hlisted).mem_iff
  refine ⟨⟨listed, hlisted, (hmem _).mpr (by decide), ?_⟩, ?_⟩
  · rw [hmem]
    decide
  · exact (hnames (by decide)).refused_iff.mpr ⟨"silk", by decide⟩

end RecordRegistry.RepeatedWitness
