import RecordRegistry.Proofs.Report.Partition

/-!
# Where the validation of rows stops

A row stops validation if it is no record, and in a mode that is not supported every row does.
Rejected rows never stop it; those before the row that does are told in the log, and no others.
-/

namespace RecordRegistry

open Json (Value Record)

/-- Whether a text is the name of a mode. -/
def UnknownFields.IsName (text : Text) : Prop := ∃ mode : UnknownFields, text = mode.name

theorem UnknownFields.isName_iff_ofName?_isSome {text : Text} :
    IsName text ↔ (ofName? text).isSome = true := by
  rw [Option.isSome_iff_exists]
  exact exists_congr fun _ => ofName?_eq_some_iff.symm

/-- Whether a value is a record. -/
def Json.Value.isRecord : Value → Bool
  | object _ => true
  | _ => false

/-- A line warns of a rejected row: it has the level of a warning and tells the index of the row,
the identity of the schema and what is wrong with the row. -/
structure Rejection.WarnedBy (identity : Identity) (rejection : Rejection) (line : LogLine) :
    Prop where
  level_eq : line.level = .warning
  source_eq : line.source = "benchreg.kernel.table"
  message_eq : line.message =
    "Rejected row " ++ toString rejection.index ++ " for " ++ identity.registry.getD "None" ++
      "@" ++ identity.version.getD "None" ++ ": " ++ rejection.failure.summary

theorem Rejection.warnedBy_logLine (identity : Identity) (rejection : Rejection) :
    rejection.WarnedBy identity (rejection.logLine identity) :=
  ⟨rfl, rfl, rfl⟩

namespace Report

/-- Whether a row stops validation in the mode of a name. -/
def stops (mode : Text) (row : Value) : Bool :=
  (UnknownFields.ofName? mode).isNone || !row.isRecord

/-- The number of rows before the one that stops validation; that of all rows if none does. -/
def stoppingPoint (mode : Text) (rows : List Value) : Nat := rows.findIdx (stops mode)

variable {mode : Text} {rows : List Value}

theorem stops_of_isName (h : UnknownFields.IsName mode) :
    stops mode = fun row => !row.isRecord := by
  funext row
  rw [UnknownFields.isName_iff_ofName?_isSome] at h
  simp [stops, Option.isNone_eq_false_iff.mpr h]

theorem find?_stops_of_not_isName (h : ¬ UnknownFields.IsName mode) :
    rows.find? (stops mode) = rows.head? := by
  rw [UnknownFields.isName_iff_ofName?_isSome, Option.not_isSome_iff_eq_none] at h
  cases rows <;> simp [stops, h]

end Report

namespace Schema

open Report (stops stoppingPoint stops_of_isName find?_stops_of_not_isName)

variable (schema : Schema) {mode : Text}

/-- A row cannot be validated for want of a supported mode, or because it is no record. -/
theorem validateValue_eq_error_iff {row : Value} {error : InputError} :
    schema.validateValue mode row = .error error ↔
      ¬ UnknownFields.IsName mode ∧ error = .unsupportedMode mode ∨
      UnknownFields.IsName mode ∧ row.isRecord = false ∧ error = .notARecord row.typeName := by
  rw [UnknownFields.isName_iff_ofName?_isSome]
  cases hmode : UnknownFields.ofName? mode with
  | none =>
      simp only [validateValue, hmode, Option.isSome_none, Bool.false_eq_true, not_false_eq_true,
        true_and, false_and, or_false, Except.error.injEq]
      exact eq_comm
  | some supported =>
      cases row with
      | object members => simp [validateValue, hmode, Value.isRecord]
      | _ => simp [validateValue, hmode, Value.isRecord, eq_comm]

theorem exists_validateValue_eq_error_iff {row : Value} :
    (∃ error, schema.validateValue mode row = .error error) ↔ stops mode row = true := by
  simp only [validateValue_eq_error_iff, UnknownFields.isName_iff_ofName?_isSome, stops]
  cases UnknownFields.ofName? mode <;> cases row.isRecord <;> simp

variable {schema}

theorem stops_of_validateValue_eq_error {row : Value} {error : InputError}
    (h : schema.validateValue mode row = .error error) : stops mode row = true :=
  schema.exists_validateValue_eq_error_iff.mp ⟨error, h⟩

theorem stops_of_validateValue_eq_ok {row : Value} {outcome : Outcome}
    (h : schema.validateValue mode row = .ok outcome) : stops mode row = false := by
  rw [← Bool.not_eq_true, ← schema.exists_validateValue_eq_error_iff, h]
  rintro ⟨error, herror⟩
  cases herror

variable (schema)

/-- The outcomes are those of the rows before the one that stops validation. -/
theorem getElem?_outcomes_eq_some_iff {rows : List Value} {index : Nat} {outcome : Outcome} :
    (schema.outcomes mode rows).1[index]? = some outcome ↔ index < stoppingPoint mode rows ∧
      ∃ row, rows[index]? = some row ∧ schema.validateValue mode row = .ok outcome := by
  induction rows generalizing index with
  | nil => simp [outcomes]
  | cons row rest ih =>
      rw [outcomes]
      cases hrow : schema.validateValue mode row with
      | error error =>
          have hstop := stops_of_validateValue_eq_error hrow
          simp [stoppingPoint, List.findIdx_cons, hstop]
      | ok first =>
          have hstop := stops_of_validateValue_eq_ok hrow
          cases index with
          | zero => simp [stoppingPoint, List.findIdx_cons, hstop, hrow]
          | succ index => simpa [stoppingPoint, List.findIdx_cons, hstop] using ih

/-- The error is that of the row that stops validation. -/
theorem outcomes_eq_some_iff {rows : List Value} {error : InputError} :
    (schema.outcomes mode rows).2 = some error ↔ ∃ row, rows.find? (stops mode) = some row ∧
      schema.validateValue mode row = .error error := by
  induction rows with
  | nil => simp [outcomes]
  | cons row rest ih =>
      rw [outcomes, List.find?_cons]
      cases hrow : schema.validateValue mode row with
      | error first =>
          have hstop := stops_of_validateValue_eq_error hrow
          simp [hstop, hrow]
      | ok first =>
          have hstop := stops_of_validateValue_eq_ok hrow
          simpa [hstop] using ih

theorem validateRows_eq_error_iff {rows : List Value} {error : InputError} :
    (schema.validateRows mode rows).2 = .error error ↔
      ¬ UnknownFields.IsName mode ∧ rows ≠ [] ∧ error = .unsupportedMode mode ∨
      UnknownFields.IsName mode ∧ ∃ row, rows.find? (!·.isRecord) = some row ∧
        error = .notARecord row.typeName := by
  have hrun : (schema.validateRows mode rows).2 = .error error ↔
      (schema.outcomes mode rows).2 = some error := by
    rw [validateRows]
    cases (schema.outcomes mode rows).2 <;> simp
  rw [hrun, outcomes_eq_some_iff]
  simp only [validateValue_eq_error_iff]
  by_cases hmode : UnknownFields.IsName mode
  · simp only [stops_of_isName hmode, hmode, not_true_eq_false, false_and, false_or, true_and]
    refine exists_congr fun row => and_congr_right fun hrow => and_iff_right ?_
    simpa using List.find?_some hrow
  · simp only [find?_stops_of_not_isName hmode, hmode, not_false_eq_true, true_and, false_and,
      or_false]
    cases rows <;> simp

/-- Rejected rows do not make validation fail. -/
theorem exists_validateRows_eq_error_iff {rows : List Value} :
    (∃ error, (schema.validateRows mode rows).2 = .error error) ↔
      rows ≠ [] ∧ (¬ UnknownFields.IsName mode ∨ ∃ row ∈ rows, row.isRecord = false) := by
  simp only [validateRows_eq_error_iff]
  by_cases hmode : UnknownFields.IsName mode
  · have hfound : (∃ row, rows.find? (!·.isRecord) = some row) ↔
        ∃ row ∈ rows, row.isRecord = false := by
      rw [← Option.isSome_iff_exists, List.find?_isSome]
      simp only [Bool.not_eq_true']
    simp only [hmode, not_true_eq_false, false_and, false_or, true_and]
    constructor
    · rintro ⟨_, row, hrow, -⟩
      exact ⟨List.ne_nil_of_mem (List.mem_of_find?_eq_some hrow), hfound.mp ⟨row, hrow⟩⟩
    · rintro ⟨-, hnone⟩
      obtain ⟨row, hrow⟩ := hfound.mpr hnone
      exact ⟨_, row, hrow, rfl⟩
  · simp [hmode]

/--
Validation of any rows in any mode.  It fails for want of a supported mode as soon as there is a
row, whatever the row is, and in a supported mode at the first row that is no record.  However it
ends, the log has one warning for each rejected row before the row that stops validation, in their
order, with the index of the row, the identity of the schema and the summary of the failure, and no
other line.
-/
theorem validateRows_stop (mode : Text) (rows : List Value) :
    let run := schema.validateRows mode rows
    ((∃ error, run.2 = .error error) ↔
      rows ≠ [] ∧ (¬ UnknownFields.IsName mode ∨ ∃ row ∈ rows, row.isRecord = false)) ∧
    (∀ error, run.2 = .error error ↔
      ¬ UnknownFields.IsName mode ∧ rows ≠ [] ∧ error = .unsupportedMode mode ∨
      UnknownFields.IsName mode ∧ ∃ row, rows.find? (!·.isRecord) = some row ∧
        error = .notARecord row.typeName) ∧
    ∃ rejections : List Rejection,
      List.Forall₂ (Rejection.WarnedBy schema.identity) rejections run.1 ∧
      (rejections.map Rejection.index).Pairwise (· < ·) ∧
      ∀ index failure, ⟨index, failure⟩ ∈ rejections ↔ index < stoppingPoint mode rows ∧
        ∃ row, rows[index]? = some row ∧
          schema.validateValue mode row = .ok (.rejected failure) := by
  have hlines : List.Forall₂ (Rejection.WarnedBy schema.identity)
      (Report.rejections 0 (schema.outcomes mode rows).1) (schema.validateRows mode rows).1 := by
    rw [validateRows, Report.logLines, List.forall₂_map_right_iff]
    exact List.forall₂_same.mpr fun rejection _ => rejection.warnedBy_logLine schema.identity
  refine ⟨schema.exists_validateRows_eq_error_iff, fun error => schema.validateRows_eq_error_iff,
    Report.rejections 0 _, hlines, Report.pairwise_index_rejections 0 _, ?_⟩
  intro index failure
  have hmem := Report.mem_rejections_iff 0 index failure (schema.outcomes mode rows).1
  rw [Nat.zero_add] at hmem
  rw [hmem, getElem?_outcomes_eq_some_iff]

end Schema

end RecordRegistry
