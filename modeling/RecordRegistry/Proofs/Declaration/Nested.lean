import RecordRegistry.Proofs.Declaration.WellFormed

/-!
# Nested optional types

An optional type that wraps another one is refused, and the refusal tells of the innermost such pair
alone. A type is asked whether it may be wrapped only once it has been read, so the optional types
around a refused one have nothing of their own to tell: they pass on what was found inside, with the
longer way that leads there.
-/

namespace RecordRegistry

open Json (Value Record)

/-- The same problem, told from the start of a path to where it was found. -/
def Problem.inside (path : List Step) (problem : Problem) : Problem :=
  ⟨path ++ problem.path, problem.cause⟩

theorem Problem.map_inside_append (outer inner : List Step) (problems : List Problem) :
    problems.map (inside (outer ++ inner)) = (problems.map (inside inner)).map (inside outer) := by
  simp [inside, Function.comp_def]

namespace Declaration

/-- A value in a number of optional types, one around the other, whatever the order of their
members. -/
inductive Wrapped (inner : Value) : Nat → Value → Prop
  | zero : Wrapped inner 0 inner
  | succ {n : Nat} {members : Record} {value : Value}
      (hmembers : members.Perm [("kind", .string "optional"), ("inner", value)])
      (hvalue : Wrapped inner n value) : Wrapped inner (n + 1) (.object members)

/-- What lies in many optional types lies in one of them, and that one in the others. -/
theorem Wrapped.exists_of_succ {inner value : Value} {n : Nat} (h : Wrapped inner (n + 1) value) :
    ∃ middle, Wrapped inner 1 middle ∧ Wrapped middle n value := by
  induction n generalizing value with
  | zero => exact ⟨value, h, .zero⟩
  | succ n ih =>
      cases h with
      | succ hmembers hvalue =>
          obtain ⟨middle, hinner, hmiddle⟩ := ih hvalue
          exact ⟨middle, hinner, .succ hmembers hmiddle⟩

/-- The way from an optional type to the one that lies a number of levels inside. -/
def descent (n : Nat) : List Step :=
  (List.replicate n [.key "inner", .key "optional"]).flatten

theorem descent_succ (n : Nat) : descent (n + 1) = descent 1 ++ descent n := by
  simp [descent, List.replicate_succ]

/-- The type that an optional type wraps, read from its declaration. -/
def wrappedType (value : Value) : Checked BaseType := (fieldType value).andThen unwrapped

section Level

variable {members : Record} {value : Value} {problems : List Problem}
variable (hmembers : members.Perm [("kind", .string "optional"), ("inner", value)])
include hmembers

theorem lookup_of_optional :
    members.lookup ("kind" : Text) = some (.string "optional") ∧
      members.lookup ("inner" : Text) = some value ∧
      ∀ name ∈ members.names, name ∈ (["kind", "inner"] : List Text) := by
  have hnames : members.names.Nodup := (hmembers.map Prod.fst).nodup_iff.mpr (by simp)
  exact (Entries.perm_pair_iff hnames (by decide)).mp hmembers

theorem optionalType_eq :
    optionalType (innerType members) members =
      ((wrappedType value).within (.key "inner")).map .optional := by
  obtain ⟨hkind, hvalue, hothers⟩ := lookup_of_optional hmembers
  rw [optionalType_innerType]
  apply tagged_eq hvalue
  · intro found hfound
    rw [hkind] at hfound
    exact (Option.some.inj hfound).symm
  · exact fun name hname => List.mem_pair.mp (hothers name hname)

theorem fieldType_of_optional :
    fieldType (.object members) =
      (optionalType (innerType members) members).within (.key "optional") := by
  simp [fieldType, (lookup_of_optional hmembers).1]

/-- Around a type that is not optional there may be one optional type, but not a second. -/
theorem wrappedType_of_plain {base : BaseType} (h : fieldType value = .ok (.plain base)) :
    wrappedType (.object members) = .fail .nestedOptional := by
  rw [wrappedType, fieldType_of_optional hmembers, optionalType_eq hmembers, wrappedType, h]
  rfl

/-- An optional type around a value that it may not wrap tells why not, and nothing else. -/
theorem optionalType_of_error (h : wrappedType value = .error problems) :
    optionalType (innerType members) members =
      .error (problems.map (.inside [.key "inner"])) := by
  rw [optionalType_eq hmembers, h]
  rfl

/-- An optional type around a refused one tells of its problems, from one level further out, and
does not mind that it is optional. -/
theorem optionalType_of_nested {outer : Record}
    (houter : outer.Perm [("kind", .string "optional"), ("inner", .object members)])
    (h : optionalType (innerType members) members = .error problems) :
    optionalType (innerType outer) outer = .error (problems.map (.inside (descent 1))) := by
  have hwrapped : wrappedType (.object members) =
      .error (problems.map (.inside [.key "optional"])) := by
    rw [wrappedType, fieldType_of_optional hmembers, h]
    rfl
  rw [optionalType_of_error houter hwrapped, ← Problem.map_inside_append]
  rfl

end Level

/-- However many optional types there are around a value that may not be wrapped, they tell why not,
and nothing else. -/
theorem optionalType_of_wrapped {inner : Value} {problems : List Problem}
    (hinner : wrappedType inner = .error problems) {n : Nat} {members : Record}
    (h : Wrapped inner (n + 1) (.object members)) :
    optionalType (innerType members) members =
      .error (problems.map (.inside (descent n ++ [.key "inner"]))) := by
  induction n generalizing members with
  | zero =>
      cases h with
      | succ hmembers hvalue =>
          cases hvalue
          exact optionalType_of_error hmembers hinner
  | succ n ih =>
      cases h with
      | succ houter hvalue =>
          cases hvalue with
          | succ hmembers hrest =>
              have hfound := ih (.succ hmembers hrest)
              rw [optionalType_of_nested hmembers houter hfound, ← Problem.map_inside_append,
                descent_succ n, List.append_assoc]

/-- A type that is not optional is read from a value of its form. -/
theorem exists_plain_of_baseForm {value : Value} (hdistinct : value.Distinct) (h : BaseForm value) :
    ∃ base, fieldType value = .ok (.plain base) := by
  obtain ⟨base, hsame⟩ := baseForm_iff.mp h
  exact ⟨base, (fieldType_eq_ok_iff hdistinct).mpr hsame⟩

/-- A value that is not of the form of a type has a problem that is told. -/
theorem exists_error_of_not_typeForm {value : Value} (hdistinct : value.Distinct)
    (h : ¬ TypeForm value) : ∃ problems, fieldType value = .error problems ∧ problems ≠ [] := by
  cases hvalue : fieldType value with
  | ok type => exact absurd (typeForm_iff.mpr ⟨type, (fieldType_eq_ok_iff hdistinct).mp hvalue⟩) h
  | error problems =>
      refine ⟨problems, rfl, ?_⟩
      rintro rfl
      exact grounded_fieldType value hvalue

end Declaration

namespace FieldType

open Declaration (BaseForm TypeForm Wrapped descent wrappedType fieldType)

theorem optionalOfValue_of_wrapped {inner value : Value} {problems : List Problem}
    (hinner : wrappedType inner = .error problems) {n : Nat} (h : Wrapped inner (n + 1) value) :
    optionalOfValue value = .error ⟨"OptionalType",
      problems.map (.inside (descent n ++ [.key "inner"]))⟩ := by
  cases h with
  | succ hmembers hvalue =>
      rw [optionalOfValue, Declaration.object,
        Declaration.optionalType_of_wrapped hinner (.succ hmembers hvalue)]
      rfl

end FieldType

namespace NestedWitness

open Declaration (BaseForm TypeForm Wrapped)
open WellFormedWitness (number optional distinct_number)

/-- A primitive type that there is not. -/
def date : Value := .object [("kind", .string "primitive"), ("primitive", .string "date")]

/-- Three optional types around a value. Their members do not stand in one order. -/
def thrice (inner : Value) : Value :=
  optional (.object [("kind", .string "optional"), ("inner", optional inner)])

theorem wrapped_thrice (inner : Value) : Wrapped inner 3 (thrice inner) :=
  .succ (List.Perm.swap _ _ _) (.succ (List.Perm.refl _) (.succ (List.Perm.swap _ _ _) .zero))

theorem distinct_date : date.Distinct := by
  simp [date, Value.distinct_object_iff, Entries.names, Value.Distinct.string]

theorem not_typeForm_date : ¬ TypeForm date := by
  intro hform
  obtain ⟨type, hsame⟩ := Declaration.typeForm_iff.mp hform
  cases (Declaration.fieldType_eq_ok_iff distinct_date).mpr hsame

end NestedWitness

end RecordRegistry
