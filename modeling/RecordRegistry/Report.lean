import RecordRegistry.Log
import RecordRegistry.Validation

/-!
# Reports on many rows

Rows are validated one by one. A rejected row is told in the log and does not stop the others; what
cannot be validated at all does. A report says which rows were accepted and which were rejected.
-/

namespace RecordRegistry

open Json (Value Record)

/-- A rejected row and its place among the rows. -/
structure Rejection where
  index : Nat
  failure : Failure
deriving DecidableEq, Repr

/-- What became of all rows. -/
structure Report where
  identity : Identity
  total : Nat
  accepted : List ValidRecord
  rejected : List Rejection
deriving Repr

/-- The log line of a rejected row. -/
def Rejection.logLine (identity : Identity) (rejection : Rejection) : LogLine :=
  ⟨.warning, "benchreg.kernel.table",
    "Rejected row " ++ toString rejection.index ++ " for " ++ identity.registry.getD "None" ++
      "@" ++ identity.version.getD "None" ++ ": " ++ rejection.failure.summary⟩

namespace Report

/-- The rejected ones of outcomes, counted from `index`. -/
def rejections (index : Nat) : List Outcome → List Rejection
  | [] => []
  | .accepted _ :: rest => rejections (index + 1) rest
  | .rejected failure :: rest => ⟨index, failure⟩ :: rejections (index + 1) rest

/-- The report on outcomes. -/
def ofOutcomes (identity : Identity) (outcomes : List Outcome) : Report where
  identity := identity
  total := outcomes.length
  accepted := outcomes.filterMap fun
    | .accepted record => some record
    | .rejected _ => none
  rejected := rejections 0 outcomes

/-- Every row is accepted or rejected. -/
theorem length_ofOutcomes (identity : Identity) (outcomes : List Outcome) :
    (ofOutcomes identity outcomes).accepted.length +
      (ofOutcomes identity outcomes).rejected.length = outcomes.length := by
  suffices h : ∀ index, (outcomes.filterMap fun
      | .accepted record => some record
      | .rejected _ => none).length + (rejections index outcomes).length = outcomes.length from h 0
  induction outcomes with
  | nil => simp [rejections]
  | cons outcome rest ih =>
    intro index
    cases outcome with
    | accepted record => simp [rejections, ← ih (index + 1)]; omega
    | rejected failure => simp [rejections, ← ih (index + 1)]; omega

/-- Whether no row was rejected. -/
def ok (report : Report) : Bool := report.rejected.isEmpty

/-- The log lines of the rejected rows. -/
def logLines (report : Report) : List LogLine :=
  report.rejected.map (Rejection.logLine report.identity)

/-- A report as a value. -/
def toValue (report : Report) : Value :=
  .object [("registry_name", Value.ofText? report.identity.registry),
    ("version_key", Value.ofText? report.identity.version),
    ("total", .int report.total),
    ("accepted", .array (report.accepted.map ValidRecord.toValue)),
    ("rejected", .array (report.rejected.map fun rejection =>
      .object [("index", .int rejection.index), ("failure", rejection.failure.toValue)]))]

end Report

namespace Schema

/-- The outcomes of rows up to the first one that cannot be validated, and why it cannot. -/
def outcomes (schema : Schema) (mode : Text) : List Value → List Outcome × Option InputError
  | [] => ([], none)
  | row :: rows =>
    match schema.validateValue mode row with
    | .error e => ([], some e)
    | .ok outcome =>
      let later := schema.outcomes mode rows
      (outcome :: later.1, later.2)

/-- Validates rows: the log lines, and the report unless a row could not be validated. -/
def validateRows (schema : Schema) (mode : Text) (rows : List Value) :
    List LogLine × Except InputError Report :=
  let run := schema.outcomes mode rows
  let report := Report.ofOutcomes schema.identity run.1
  (report.logLines, match run.2 with
    | some e => .error e
    | none => .ok report)

/-- The report on rows that are records. -/
def report (schema : Schema) (mode : UnknownFields) (rows : List Record) : Report :=
  Report.ofOutcomes schema.identity (rows.map (schema.validate mode))

/-- Records in a supported mode are all validated. -/
theorem outcomes_records (schema : Schema) (mode : UnknownFields) (rows : List Record) :
    schema.outcomes mode.name (rows.map .object) = (rows.map (schema.validate mode), none) := by
  induction rows with
  | nil => rfl
  | cons row rest ih => simp [outcomes, validateValue_object, ih]

/-- Rows that are records always have a report. -/
theorem validateRows_records (schema : Schema) (mode : UnknownFields) (rows : List Record) :
    schema.validateRows mode.name (rows.map .object) =
      ((schema.report mode rows).logLines, .ok (schema.report mode rows)) := by
  simp [validateRows, outcomes_records, report]

end Schema

end RecordRegistry
