import RecordRegistry.Text.Quoted

/-!
# Problems in declarations and settings

A problem has a path to the place where it was found, and a cause with a code and a wording. A
check gives a value or all the problems that speak against it.
-/

namespace RecordRegistry

/-- One step into a value. -/
inductive Step where
  | key (name : Text)
  | index (n : Nat)
deriving DecidableEq, Repr

/-- What is wrong at a place. -/
inductive Cause where
  | missing
  | undeclared
  | notAText
  | notAList
  | notAnObject (model : Text)
  | notAType
  | noKind
  | unknownKind (shown : Text)
  | notAmong (expected : List Text)
  | noChoices
  | repeatedChoices (values : List Text)
  | nestedOptional
  | emptyName
  | repeatedNames (names : List Text)
  | unknownLevel (known : List Text) (level : Text)
deriving DecidableEq, Repr

/-- Quoted texts of which one is meant. -/
def alternatives : List Text → Text
  | [] => ""
  | [last] => Text.quoted last
  | [first, last] => Text.quoted first ++ " or " ++ Text.quoted last
  | first :: rest => Text.quoted first ++ ", " ++ alternatives rest

namespace Cause

/-- The code of a cause. -/
def code : Cause → Text
  | missing => "missing"
  | undeclared => "extra_forbidden"
  | notAText => "string_type"
  | notAList => "tuple_type"
  | notAnObject _ => "model_type"
  | notAType => "model_attributes_type"
  | noKind => "union_tag_not_found"
  | unknownKind _ => "union_tag_invalid"
  | notAmong _ => "literal_error"
  | noChoices | repeatedChoices _ | nestedOptional | emptyName | repeatedNames _
  | unknownLevel _ _ => "value_error"

/-- The wording of a cause. -/
def message : Cause → Text
  | missing => "Field required"
  | undeclared => "Extra inputs are not permitted"
  | notAText => "Input should be a valid string"
  | notAList => "Input should be a valid tuple"
  | notAnObject model => "Input should be a valid dictionary or instance of " ++ model
  | notAType => "Input should be a valid dictionary or object to extract fields from"
  | noKind => "Unable to extract tag using discriminator 'kind'"
  | unknownKind shown =>
    "Input tag '" ++ shown ++ "' found using 'kind' does not match any of the expected tags: " ++
      "'primitive', 'enum', 'optional'"
  | notAmong expected => "Input should be " ++ alternatives expected
  | noChoices => "Value error, Enum must allow at least one value"
  | repeatedChoices values =>
    "Value error, Duplicate enum values not allowed: " ++ Text.quotedList values
  | nestedOptional => "Value error, Optional fields cannot wrap another optional type"
  | emptyName => "Value error, Field name must be a non-empty string"
  | repeatedNames names =>
    "Value error, Duplicate field names not allowed: " ++ Text.quotedList names
  | unknownLevel known level =>
    "Value error, log_level must be one of " ++ Text.quotedList known ++ ", got '" ++ level ++ "'"

end Cause

/-- A cause and the path to its place. -/
structure Problem where
  path : List Step
  cause : Cause
deriving DecidableEq, Repr

/-- A value, or all the problems that speak against it. -/
abbrev Checked (α : Type) := Except (List Problem) α

namespace Checked

variable {α β : Type}

/-- One problem, at the place itself. -/
def fail (cause : Cause) : Checked α := .error [⟨[], cause⟩]

/-- The problems of a check. -/
def problems : Checked α → List Problem
  | .ok _ => []
  | .error found => found

/-- What a check gives, made into something else. -/
def map (f : α → β) : Checked α → Checked β
  | .ok a => .ok (f a)
  | .error found => .error found

/-- The same check, told from one step further out. -/
def within (step : Step) : Checked α → Checked α
  | .ok a => .ok a
  | .error found => .error (found.map fun problem => ⟨step :: problem.path, problem.cause⟩)

/-- Two checks that do not depend on each other: the problems of both are told, in order. -/
def both (first : Checked α) (second : Checked β) : Checked (α × β) :=
  match first, second with
  | .ok a, .ok b => .ok (a, b)
  | first, second => .error (first.problems ++ second.problems)

/-- A check that runs only on what an earlier one has accepted. -/
def andThen (first : Checked α) (second : α → Checked β) : Checked β :=
  match first with
  | .ok a => second a
  | .error found => .error found

/-- A mapped check gives what the function makes of an accepted value. -/
theorem map_eq_ok_iff {f : α → β} {check : Checked α} {b : β} :
    check.map f = .ok b ↔ ∃ a, check = .ok a ∧ f a = b := by
  cases check <;> simp [map]

/-- Two functions on what a check gives are one after the other. -/
theorem map_map {γ : Type} {f : α → β} {g : β → γ} {check : Checked α} :
    (check.map f).map g = check.map fun a => g (f a) := by
  cases check <;> rfl

/-- The place of a check has no say in what it accepts. -/
theorem within_eq_ok_iff {step : Step} {check : Checked α} {a : α} :
    check.within step = .ok a ↔ check = .ok a := by
  cases check <;> simp [within]

/-- Both checks must accept. -/
theorem both_eq_ok_iff {first : Checked α} {second : Checked β} {pair : α × β} :
    first.both second = .ok pair ↔ first = .ok pair.1 ∧ second = .ok pair.2 := by
  cases first <;> cases second <;> simp [both, Prod.ext_iff]

/-- The later check must accept what the earlier one has accepted. -/
theorem andThen_eq_ok_iff {first : Checked α} {second : α → Checked β} {b : β} :
    first.andThen second = .ok b ↔ ∃ a, first = .ok a ∧ second a = .ok b := by
  cases first <;> simp [andThen]

/-- The problems of two independent checks are those of the one and then those of the other. -/
theorem problems_both (first : Checked α) (second : Checked β) :
    (first.both second).problems = first.problems ++ second.problems := by
  cases first <;> cases second <;> simp [both, problems]

end Checked

/-- A value that was to be a model of the given name, and all the problems found in it. -/
structure Refusal where
  model : Text
  problems : List Problem
deriving DecidableEq, Repr

end RecordRegistry
