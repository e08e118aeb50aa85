import RecordRegistry.Schema.Declaration

/-!
# Problems of refused values

A check either accepts a value or has a problem to tell. The combinators of checks keep this up, so
it holds of every declaration, at whatever depth the value was refused.
-/

namespace RecordRegistry

open Json (Value Record)

namespace Checked

variable {α β : Type}

/-- A check that tells of a problem wherever it refuses. -/
def Grounded (check : Checked α) : Prop := check ≠ .error []

@[simp] theorem grounded_ok (a : α) : Grounded (.ok a) := nofun

@[simp] theorem grounded_fail (cause : Cause) : (fail cause : Checked α).Grounded := nofun

@[simp] theorem grounded_map {f : α → β} {check : Checked α} :
    (check.map f).Grounded ↔ check.Grounded := by
  cases check <;> simp [Grounded, map]

@[simp] theorem grounded_within {step : Step} {check : Checked α} :
    (check.within step).Grounded ↔ check.Grounded := by
  cases check <;> simp [Grounded, within]

theorem Grounded.both {first : Checked α} {second : Checked β} (hfirst : first.Grounded)
    (hsecond : second.Grounded) : (first.both second).Grounded := by
  cases first <;> cases second <;> simp_all [Grounded, Checked.both, problems]

theorem Grounded.andThen {first : Checked α} {second : α → Checked β} (hfirst : first.Grounded)
    (hsecond : ∀ a, (second a).Grounded) : (first.andThen second).Grounded := by
  cases first with
  | ok a => exact hsecond a
  | error found => simpa [Grounded, Checked.andThen] using hfirst

end Checked

namespace Declaration

section Grounded

variable {α : Type} {check : Value → Checked α} (hcheck : ∀ value, (check value).Grounded)

theorem grounded_text (value : Value) : (text value).Grounded := by
  cases value <;> simp [text]

theorem grounded_optionalText (value : Value) : (optionalText value).Grounded := by
  cases value <;> simp [optionalText, text]

theorem grounded_among (expected : List Text) (value : Value) :
    (among expected value).Grounded := by
  cases value with
  | string s =>
      rw [among]
      split <;> simp
  | _ => simp [among]

theorem grounded_noOthers (names : List Text) (members : Record) :
    (noOthers names members).Grounded := by
  rw [noOthers]
  split
  · exact Checked.grounded_ok ()
  · next hothers => simpa [Checked.Grounded] using hothers

include hcheck

theorem grounded_items (index : Nat) (values : List Value) :
    (items check index values).Grounded := by
  induction values generalizing index with
  | nil => exact Checked.grounded_ok []
  | cons value values ih =>
      rw [items, Checked.grounded_map]
      apply Checked.Grounded.both
      · exact Checked.grounded_within.mpr (hcheck value)
      · exact ih (index + 1)

theorem grounded_list (value : Value) : (list check value).Grounded := by
  cases value with
  | array values => exact grounded_items hcheck 0 values
  | _ => exact Checked.grounded_fail _

theorem grounded_required (name : Text) (members : Record) :
    (required name check members).Grounded := by
  rw [required]
  split
  · simp
  · simpa using hcheck _

theorem grounded_optional (name : Text) (missing : α) (members : Record) :
    (optional name missing check members).Grounded := by
  rw [optional]
  split
  · simp
  · simpa using hcheck _

end Grounded

theorem grounded_kind (expected : Text) (members : Record) :
    (kind expected members).Grounded :=
  grounded_optional (grounded_among [expected]) "kind" expected members

theorem grounded_choices (value : Value) : (choices value).Grounded := by
  apply Checked.Grounded.andThen (grounded_list grounded_text value)
  intro values
  split
  · simp
  · split <;> simp

theorem grounded_primitiveType (members : Record) : (primitiveType members).Grounded := by
  have hname : ∀ value, (primitiveName value).Grounded :=
    fun value => Checked.grounded_map.mpr (grounded_among _ value)
  rw [primitiveType, Checked.grounded_map]
  exact (grounded_kind _ members).both
    ((grounded_required hname _ members).both (grounded_noOthers _ members))

theorem grounded_enumType (members : Record) : (enumType members).Grounded := by
  rw [enumType, Checked.grounded_map]
  exact (grounded_kind _ members).both
    ((grounded_required grounded_choices _ members).both (grounded_noOthers _ members))

theorem grounded_optionalType {inner : Option (Checked FieldType)}
    (hinner : ∀ check, inner = some check → check.Grounded) (members : Record) :
    (optionalType inner members).Grounded := by
  have hbase : ∀ type, (unwrapped type).Grounded := by
    intro type
    cases type <;> simp [unwrapped]
  unfold optionalType
  rw [Checked.grounded_map]
  apply (grounded_kind _ members).both
  apply Checked.Grounded.both _ (grounded_noOthers _ members)
  rw [Checked.grounded_within]
  cases inner with
  | none => exact Checked.grounded_fail .missing
  | some check => exact (hinner check rfl).andThen hbase

mutual

theorem grounded_fieldType (value : Value) : (fieldType value).Grounded := by
  cases value with
  | object members =>
      rw [fieldType]
      split
      · simp
      · -- one of the three kinds, or another name
        split
        · simp [grounded_primitiveType]
        · split
          · simp [grounded_enumType]
          · split
            · rw [Checked.grounded_within]
              exact grounded_optionalType (grounded_innerType members) members
            · simp
      · simp
  | _ => simp [fieldType]

theorem grounded_innerType (members : List (Text × Value)) :
    ∀ check, innerType members = some check → check.Grounded := by
  intro check h
  match members with
  | [] => cases h
  | (name, value) :: rest =>
      rw [innerType] at h
      split at h
      · cases h
        exact grounded_fieldType value
      · exact grounded_innerType rest check h

end

theorem grounded_fieldName (value : Value) : (fieldName value).Grounded := by
  apply (grounded_text value).andThen
  intro name
  split <;> simp

theorem grounded_field (value : Value) : (field value).Grounded := by
  cases value with
  | object members =>
      rw [field, object, Checked.grounded_map]
      exact (grounded_required grounded_fieldName _ members).both
        ((grounded_required grounded_fieldType _ members).both (grounded_noOthers _ members))
  | _ => exact Checked.grounded_fail _

theorem grounded_distinct (fields : List Field) : (distinct fields).Grounded := by
  rw [distinct]
  split <;> simp

/-- A value that declares no schema has a problem that is told. -/
theorem grounded_schema (value : Value) : (schema value).Grounded := by
  cases value with
  | object members =>
      have hfields : ∀ value, ((list field value).andThen distinct).Grounded :=
        fun value => (grounded_list grounded_field value).andThen grounded_distinct
      have htext := fun name => grounded_optional grounded_optionalText name none members
      rw [schema, object, Checked.grounded_map]
      exact (grounded_required hfields _ members).both
        ((htext _).both ((htext _).both ((htext _).both (grounded_noOthers _ members))))
  | _ => exact Checked.grounded_fail _

end Declaration

end RecordRegistry
