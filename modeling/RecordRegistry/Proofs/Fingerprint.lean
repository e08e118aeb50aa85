import RecordRegistry.Proofs.Json.Line
import RecordRegistry.Proofs.Json.Surrogates
import RecordRegistry.Schema.Export

/-!
# Fingerprints tell shapes apart

The canonical text of the field declarations is the same for two schemas exactly when they declare
the same fields. A fingerprint that two shapes share is therefore a collision of the digest. The
digest is one of bytes, so that a schema has a fingerprint exactly when none of its names and
choices holds a surrogate.
-/

namespace RecordRegistry

open Json (Value)

namespace Json.Value

theorem sorted_string (s : Text) : (string s).sorted = string s := by
  simp [sorted]

/-- The members of an object of two stand in the order of their names. -/
theorem sorted_pair (name name' : Text) (v w : Value) :
    (object [(name, v), (name', w)]).sorted =
      if name ≤ name' then object [(name, v.sorted), (name', w.sorted)]
      else object [(name', w.sorted), (name, v.sorted)] := by
  rw [sorted, sortedMembers, sortedMembers, sortedMembers]
  by_cases hle : name ≤ name'
  · rw [if_pos hle, List.mergeSort_of_pairwise]
    simpa using hle
  · rw [if_neg hle]
    simp [List.mergeSort, List.MergeSort.Internal.splitInTwo, hle]

theorem alikeItems_map_string_iff (texts others : List Text) :
    AlikeItems (texts.map string) (others.map string) ↔ texts = others := by
  induction texts generalizing others with
  | nil => cases others <;> simp [AlikeItems]
  | cons text texts ih =>
      cases others with
      | nil => simp [AlikeItems]
      | cons other others =>
          rw [List.map_cons, List.map_cons, AlikeItems, Alike, ih others, List.cons.injEq]

theorem sorted_ofTexts (texts : List Text) : (ofTexts texts).sorted = ofTexts texts := by
  rw [ofTexts, sorted, sortedItems_map, List.map_map]
  rfl

theorem texts_ofTexts (texts : List Text) : (ofTexts texts).texts = texts := by
  rw [ofTexts, Value.texts, textsItems_eq_flatMap, List.flatMap_map]
  exact List.flatMap_singleton' texts

end Json.Value

theorem Primitive.name_inj {p q : Primitive} (h : p.name = q.name) : p = q := by
  cases p <;> cases q <;> first | rfl | exact absurd h (by decide)

namespace BaseType

theorem sorted_toValue_primitive (p : Primitive) :
    (primitive p).toValue.sorted =
      .object [("kind", .string "primitive"), ("primitive", .string p.name)] := by
  rw [toValue, Value.sorted_pair, if_pos (by decide), Value.sorted_string,
    Value.sorted_string]

theorem sorted_toValue_enum (choices : Choices) :
    (enum choices).toValue.sorted =
      .object [("allowed", Value.ofTexts choices.values), ("kind", .string "enum")] := by
  rw [toValue, Value.sorted_pair, if_neg (by decide), Value.sorted_ofTexts,
    Value.sorted_string]

/-- The declaration of a type is its own up to the order of members. -/
theorem eq_of_alike {a b : BaseType} (h : Value.Alike a.toValue.sorted b.toValue.sorted) :
    a = b := by
  cases a with
  | primitive p =>
      rw [sorted_toValue_primitive p] at h
      cases b with
      | primitive q =>
          rw [sorted_toValue_primitive q] at h
          rw [Primitive.name_inj h.2.2.2.1]
      | enum choices =>
          rw [sorted_toValue_enum choices] at h
          exact absurd h.1 (by decide)
  | enum choices =>
      rw [sorted_toValue_enum choices] at h
      cases b with
      | primitive q =>
          rw [sorted_toValue_primitive q] at h
          exact absurd h.1 (by decide)
      | enum others =>
          rw [sorted_toValue_enum others] at h
          have hvalues := (Value.alikeItems_map_string_iff _ _).mp h.2.1
          rcases choices with ⟨values, _, _⟩
          rcases others with ⟨values', _, _⟩
          subst hvalues
          rfl

end BaseType

namespace FieldType

theorem sorted_toValue_optional (base : BaseType) :
    (optional base).toValue.sorted =
      .object [("inner", base.toValue.sorted), ("kind", .string "optional")] := by
  rw [toValue, Value.sorted_pair, if_neg (by decide), Value.sorted_string]

/-- Leaving a value out is declared by a member that no other type has. -/
theorem not_alike_plain_optional (a b : BaseType) :
    ¬ Value.Alike (plain a).toValue.sorted (optional b).toValue.sorted ∧
      ¬ Value.Alike (optional b).toValue.sorted (plain a).toValue.sorted := by
  rw [sorted_toValue_optional b, toValue]
  cases a with
  | primitive p =>
      rw [BaseType.sorted_toValue_primitive p]
      exact ⟨fun h => absurd h.1 (by decide), fun h => absurd h.1 (by decide)⟩
  | enum choices =>
      rw [BaseType.sorted_toValue_enum choices]
      exact ⟨fun h => absurd h.1 (by decide), fun h => absurd h.1 (by decide)⟩

theorem eq_of_alike {a b : FieldType} (h : Value.Alike a.toValue.sorted b.toValue.sorted) :
    a = b := by
  cases a with
  | plain base =>
      cases b with
      | plain base' => rw [BaseType.eq_of_alike h]
      | optional base' => exact absurd h (not_alike_plain_optional base base').1
  | optional base =>
      cases b with
      | plain base' => exact absurd h (not_alike_plain_optional base' base).2
      | optional base' =>
          rw [sorted_toValue_optional base, sorted_toValue_optional base'] at h
          rw [BaseType.eq_of_alike h.2.1]

end FieldType

theorem Field.eq_of_alike {a b : Field} (h : Value.Alike a.toValue.sorted b.toValue.sorted) :
    a = b := by
  rw [Field.toValue, Field.toValue, Value.sorted_pair, Value.sorted_pair, if_pos (by decide),
    if_pos (by decide), Value.sorted_string, Value.sorted_string] at h
  have hname : a.name = b.name := h.2.1
  have htype : a.type = b.type := FieldType.eq_of_alike h.2.2.2.1
  rcases a with ⟨name, _, type⟩
  rcases b with ⟨name', _, type'⟩
  subst hname
  subst htype
  rfl

/-- Lists of fields are known by their declarations, one by one. -/
theorem fields_eq_of_alike {fields others : List Field}
    (h : Value.AlikeItems (Value.sortedItems (fields.map Field.toValue))
      (Value.sortedItems (others.map Field.toValue))) : fields = others := by
  induction fields generalizing others with
  | nil =>
      cases others with
      | nil => rfl
      | cons other others => cases h
  | cons field fields ih =>
      cases others with
      | nil => cases h
      | cons other others => rw [Field.eq_of_alike h.1, ih h.2]

namespace Sha256

/-- Two messages that the digest does not tell apart. -/
def Collision (message other : List UInt8) : Prop :=
  message ≠ other ∧ digest message = digest other

end Sha256

/-- The fingerprint of bytes tells as much about them as the digest. -/
theorem Json.fingerprintOfBytes_eq_iff (bytes others : List UInt8) :
    fingerprintOfBytes bytes = fingerprintOfBytes others ↔
      Sha256.digest bytes = Sha256.digest others := by
  rw [← Sha256.hexDigest_eq_iff, fingerprintOfBytes, fingerprintOfBytes, Text.ext_iff,
    Text.toList_append, Text.toList_append, List.append_right_inj, ← Text.ext_iff]

/-- The values that a type allows by name. -/
def BaseType.choices : BaseType → List Text
  | primitive _ => []
  | enum choices => choices.values

/-! The declarations name what they declare with texts of characters. -/

theorem BaseType.surrogateFree_toValue (base : BaseType) :
    (∀ s ∈ base.toValue.texts, s.SurrogateFree) ↔ ∀ s ∈ base.choices, s.SurrogateFree := by
  cases base with
  | primitive p =>
      cases p <;> simp [toValue, choices, Primitive.name, Value.texts, Value.textsMembers,
        Text.surrogateFree_ofString]
  | enum choices =>
      simp [toValue, BaseType.choices, Value.texts_ofTexts, Value.texts, Value.textsMembers,
        Text.surrogateFree_ofString]

theorem FieldType.surrogateFree_toValue (type : FieldType) :
    (∀ s ∈ type.toValue.texts, s.SurrogateFree) ↔ ∀ s ∈ type.base.choices, s.SurrogateFree := by
  cases type with
  | plain inner => exact inner.surrogateFree_toValue
  | optional inner =>
      rw [base, ← inner.surrogateFree_toValue, toValue]
      simp [Value.texts, Value.textsMembers, Text.surrogateFree_ofString]

theorem Field.surrogateFree_toValue (field : Field) :
    (∀ s ∈ field.toValue.texts, s.SurrogateFree) ↔
      field.name.SurrogateFree ∧ ∀ s ∈ field.type.base.choices, s.SurrogateFree := by
  rw [← field.type.surrogateFree_toValue, toValue]
  simp [Value.texts, Value.textsMembers, Text.surrogateFree_ofString]

namespace Schema

/-- The bytes of which the fingerprint of a schema is the digest, where there are any. -/
def message (schema : Schema) : Except Text.SurrogateError (List UInt8) :=
  schema.fieldsValue.canonical.utf8

theorem fingerprint_eq_map_message (schema : Schema) :
    schema.fingerprint = schema.message.map Json.fingerprintOfBytes := rfl

theorem canonical_fieldsValue_eq_iff (a b : Schema) :
    a.fieldsValue.canonical = b.fieldsValue.canonical ↔ a.fields = b.fields := by
  constructor
  · intro h
    have halike := (Value.canonical_eq_iff_alike_sorted _ _).mp h
    rw [fieldsValue, fieldsValue, Value.sorted, Value.sorted] at halike
    exact fields_eq_of_alike halike
  · intro h
    rw [fieldsValue, fieldsValue, h]

/-! ## Which schemas have a fingerprint -/

/-- The values that the enums of a schema allow. -/
def choices (schema : Schema) : List Text := schema.fields.flatMap (·.type.base.choices)

/-- A schema has a fingerprint exactly when neither the names of its fields nor the choices of its
enums hold a surrogate. -/
theorem exists_fingerprint_iff (schema : Schema) :
    (∃ fingerprint, schema.fingerprint = .ok fingerprint) ↔
      ∀ text ∈ schema.names ++ schema.choices, text.SurrogateFree := by
  have hmessage : (∃ fingerprint, schema.fingerprint = .ok fingerprint) ↔
      ∃ bytes, schema.message = .ok bytes := by
    rw [fingerprint_eq_map_message]
    cases schema.message <;> simp [Except.map]
  rw [hmessage]
  refine Text.exists_utf8_iff.trans ?_
  rw [Value.surrogateFree_canonical, fieldsValue, Value.texts, Value.textsItems_eq_flatMap,
    List.flatMap_map, List.forall_mem_append, names, choices]
  simp only [List.forall_mem_flatMap, List.forall_mem_map, Field.surrogateFree_toValue]
  exact ⟨fun h => ⟨fun field hfield => (h field hfield).1, fun field hfield => (h field hfield).2⟩,
    fun h field hfield => ⟨h.1 field hfield, h.2 field hfield⟩⟩

/-- The canonical text of the fields is the same for two schemas exactly when they have the same
shape, whatever texts they are made of. Fingerprints agree for one shape and differ for two, unless
the digest collides on the very bytes of their texts or neither of them has bytes. -/
theorem fingerprint_faithful (a b : Schema) :
    (a.fieldsValue.canonical = b.fieldsValue.canonical ↔ a.sameShape b = true) ∧
      (a.fingerprint = b.fingerprint ↔
        a.sameShape b = true ∨
          (∃ bytes others, a.message = .ok bytes ∧ b.message = .ok others ∧
            Sha256.Collision bytes others) ∨
          ∃ e, a.message = .error e ∧ b.message = .error e) := by
  have hshape : a.fieldsValue.canonical = b.fieldsValue.canonical ↔ a.sameShape b = true := by
    rw [canonical_fieldsValue_eq_iff, sameShape, decide_eq_true_eq]
  refine ⟨hshape, ?_⟩
  rw [← hshape, fingerprint_eq_map_message, fingerprint_eq_map_message]
  constructor
  · intro h
    cases ha : a.message with
    | error e =>
        cases hb : b.message with
        | error e' =>
            rw [ha, hb] at h
            cases h
            exact .inr (.inr ⟨e, rfl, rfl⟩)
        | ok others =>
            rw [ha, hb] at h
            cases h
    | ok bytes =>
        cases hb : b.message with
        | error e =>
            rw [ha, hb] at h
            cases h
        | ok others =>
            rw [ha, hb] at h
            have hdigest := (Json.fingerprintOfBytes_eq_iff bytes others).mp (Except.ok.inj h)
            by_cases hbytes : bytes = others
            · exact .inl (Text.utf8_inj ha (hbytes ▸ hb))
            · exact .inr (.inl ⟨bytes, others, rfl, rfl, hbytes, hdigest⟩)
  · rintro (h | ⟨bytes, others, ha, hb, hcollision⟩ | ⟨e, ha, hb⟩)
    · rw [message, message, h]
    · rw [ha, hb, Except.map, Except.map,
        (Json.fingerprintOfBytes_eq_iff bytes others).mpr hcollision.2]
    · rw [ha, hb]

end Schema

end RecordRegistry
