import RecordRegistry.Proofs.Verdict

/-!
# Accepted values

`BaseType.Accepts` lists the values that a type accepts, and `Field.Met` says what a field asks of a
record. A field without an issue is one that is met, so that a claim about issues can be argued in
terms of values alone.
-/

namespace RecordRegistry

open Json (Value Record)

/-- The values that a type accepts: texts, numbers other than NaN, or the choices of an enum. -/
inductive BaseType.Accepts : BaseType → Value → Prop
  | text (s : Text) : Accepts (primitive .string) (.string s)
  | int (n : Int) : Accepts (primitive .number) (.int n)
  | real {x : Double} (h : x ≠ .nan) : Accepts (primitive .number) (.real x)
  | choice {choices : Choices} {s : Text} (h : s ∈ choices.values) :
      Accepts (enum choices) (.string s)

/-- What a field asks of a record: a value that its type accepts, or none if it is optional. -/
inductive Field.Met (record : Record) (field : Field) : Prop
  | given {value : Value} (hvalue : record.lookup field.name = some value)
      (haccepts : field.type.base.Accepts value)
  | absent (habsent : record.lookup field.name = none) (hoptional : field.required = false)

namespace BaseType

theorem accepts_iff (base : BaseType) (value : Value) :
    base.Accepts value ↔ base.Fits value ∧
      ∀ choices s, base = .enum choices → value = .string s → s ∈ choices.values := by
  constructor
  · intro h
    cases h with
    | text s => exact ⟨.text s, by simp⟩
    | int n => exact ⟨.int n, by simp⟩
    | real hx => exact ⟨.real hx, by simp⟩
    | choice hs => exact ⟨.choice _ _, by simpa using hs⟩
  · rintro ⟨hfits, hchoice⟩
    cases hfits with
    | text s => exact .text s
    | int n => exact .int n
    | real hx => exact .real hx
    | choice choices s => exact .choice (hchoice choices s rfl rfl)

/-- A value has no issue exactly when its type accepts it. -/
theorem issue?_eq_none_iff_accepts (name : Text) (base : BaseType) (value : Value) :
    base.issue? name value = none ↔ base.Accepts value := by
  rw [issue?_eq_none_iff, accepts_iff]

/-- Every type accepts something. -/
theorem exists_accepts (base : BaseType) : ∃ value, base.Accepts value := by
  cases base with
  | primitive p =>
      cases p with
      | string => exact ⟨_, .text ""⟩
      | number => exact ⟨_, .int 0⟩
  | enum choices =>
      obtain ⟨s, hs⟩ := List.exists_mem_of_ne_nil _ choices.values_ne_nil
      exact ⟨_, .choice hs⟩

end BaseType

/-- A field has no issue exactly when it is met. -/
theorem Field.issue?_eq_none_iff_met (record : Record) (field : Field) :
    field.issue? record = none ↔ field.Met record := by
  constructor
  · intro h
    cases hlookup : record.lookup field.name with
    | none =>
        rw [issue?_of_lookup_eq_none hlookup] at h
        exact .absent hlookup (by simpa using h)
    | some value =>
        rw [issue?_of_lookup_eq_some hlookup, BaseType.issue?_eq_none_iff_accepts] at h
        exact .given hlookup h
  · intro h
    cases h with
    | given hvalue haccepts =>
        rw [issue?_of_lookup_eq_some hvalue, BaseType.issue?_eq_none_iff_accepts]
        exact haccepts
    | absent habsent hoptional =>
        rw [issue?_of_lookup_eq_none habsent, hoptional]
        rfl

end RecordRegistry
