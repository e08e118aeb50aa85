import RecordRegistry.Disk.Tree
import RecordRegistry.Proofs.CommandLine.Printing
import RecordRegistry.Proofs.Load.Failure
import RecordRegistry.Proofs.Registry.RegisterAll

/-!
# Failures of a validation

A validation that cannot load its rows ends with a message and an exit code when the loader's
failure is of some kind. The one failure without a kind, a cell that is too long, leaves it without
an exit code.
-/

namespace RecordRegistry.CommandLine

variable {σ : Type} {disk : Disk (StateM σ)} {s s' : σ}

/-- The lines that are printed unless the program keeps quiet. -/
def told (quiet : Bool) (lines : List Text) : List Text := if quiet then [] else lines

/-- A report that cannot be told is written nowhere. -/
theorem finishValidate_of_fault {quiet : Bool} {report : Report} {e : Text.SurrogateError}
    (h : (Printing.ofLines (told quiet (reportLines report))).fault = some e)
    (disk : Disk (StateM σ)) (output : ReportTarget) (s : σ) :
    finishValidate disk quiet output report s =
      ((RunResult.failed 2 e.message).after
        (Printing.ofLines (told quiet (reportLines report))).lines [], s) := by
  rw [told] at h ⊢
  unfold finishValidate
  simp only [h]
  rfl

/-- What becomes of a report that has been told: the rest of the run, and the state behind it. -/
def afterTold (disk : Disk (StateM σ)) (quiet : Bool) (report : Report) (s : σ) :
    ReportTarget → RunResult × σ
  | .nowhere => (⟨.exit (if report.ok then 0 else 1), [], []⟩, s)
  | .unnamed => (⟨.abort .noOutput, [], []⟩, s)
  | .file path =>
      match writeReport disk path report s with
      | (.error e, s') => (.failed 2 e.message, s')
      | (.ok (), s') =>
          (RunResult.printing (told quiet ["  Report: " ++ path.toText])
            ⟨.exit (if report.ok then 0 else 1), [], []⟩, s')

/-- A report that can be told is told before anything is written. -/
theorem finishValidate_of_told {quiet : Bool} {report : Report}
    (h : ∀ line ∈ told quiet (reportLines report), line.SurrogateFree)
    (disk : Disk (StateM σ)) (output : ReportTarget) (s : σ) :
    finishValidate disk quiet output report s =
      ((afterTold disk quiet report s output).1.after (told quiet (reportLines report)) [],
        (afterTold disk quiet report s output).2) := by
  rw [told] at h ⊢
  have hfault := Printing.fault_ofLines_eq_none_iff.mpr h
  unfold finishValidate
  simp only [hfault, Printing.lines_ofLines_of_fault_eq_none hfault]
  cases output with
  | nowhere => rfl
  | unnamed =>
      simp only [afterTold, RunResult.after, List.append_nil]
      rfl
  | file path =>
      simp only [afterTold, bind, StateT.bind]
      rcases writeReport disk path report s with ⟨e | ⟨⟩, s'⟩ <;> rfl

/-- A report for a named file, or for none, lets the program end with a code. -/
theorem exists_exit_finishValidate {output : ReportTarget} (houtput : output ≠ .unnamed)
    (quiet : Bool) (report : Report) (s : σ) :
    ∃ code, (finishValidate disk quiet output report s).1.ending = .exit code := by
  cases hfault : (Printing.ofLines (told quiet (reportLines report))).fault with
  | some e =>
      rw [finishValidate_of_fault hfault]
      exact ⟨2, rfl⟩
  | none =>
      rw [finishValidate_of_told (Printing.fault_ofLines_eq_none_iff.mp hfault)]
      cases output with
      | nowhere => exact ⟨_, rfl⟩
      | unnamed => exact absurd rfl houtput
      | file path =>
          rw [afterTold]
          rcases writeReport disk path report s with ⟨e | ⟨⟩, s'⟩
          · exact ⟨2, rfl⟩
          · exact RunResult.exists_exit_printing _ rfl

section Validate

variable {settings : Settings} {level : LogLevel} {quiet : Bool} {options : ValidateOptions}
variable {schema : Schema}

/-- The rows that a validation is to check, or what keeps them from being loaded. -/
def loaded (disk : Disk (StateM σ)) (options : ValidateOptions) (s : σ) :
    Except LoadError (List Json.Record) :=
  (Rows.load disk options.input (options.format.map RowFormat.name) s).1

theorem exists_load_of_loaded_eq {result : Except LoadError (List Json.Record)}
    (h : loaded disk options s = result) :
    ∃ s', Rows.load disk options.input (options.format.map RowFormat.name) s = (result, s') :=
  ⟨_, Prod.ext h rfl⟩

theorem runValidate_of_loaded_eq_csv
    (hschema : Registry.builtin.lookup options.registry options.version = .ok schema)
    (hload : loaded disk options s = .error (.rows (.csv ⟨⟩))) :
    (runValidate disk settings level quiet options s).1 = ⟨.abort (.csv ⟨⟩), [], []⟩ := by
  obtain ⟨s', hload⟩ := exists_load_of_loaded_eq hload
  rw [runValidate, hschema]
  simp only [bind, StateT.bind, hload]
  rfl

theorem runValidate_of_loaded_eq_error {e : LoadError} (hkind : e.kind?.isSome = true)
    (hschema : Registry.builtin.lookup options.registry options.version = .ok schema)
    (hload : loaded disk options s = .error e) :
    (runValidate disk settings level quiet options s).1 = .failed 2 e.message := by
  obtain ⟨s', hload⟩ := exists_load_of_loaded_eq hload
  rw [runValidate, hschema]
  simp only [bind, StateT.bind, hload]
  cases e with
  | format | file | encoding => rfl
  | rows error =>
      cases error with
      | json | notRows | notARow => rfl
      | csv => cases hkind

theorem exists_exit_runValidate_of_loaded_eq_ok {rows : List Json.Record}
    (hschema : Registry.builtin.lookup options.registry options.version = .ok schema)
    (houtput : options.output ≠ .unnamed) (hload : loaded disk options s = .ok rows) :
    ∃ code, (runValidate disk settings level quiet options s).1.ending = .exit code := by
  obtain ⟨s', hload⟩ := exists_load_of_loaded_eq hload
  rw [runValidate, hschema]
  simp only [bind, StateT.bind, hload]
  exact exists_exit_finishValidate houtput quiet _ s'

/-- A validation that ends without an exit code has met a long cell in its input. -/
theorem runValidate_abort_iff (houtput : options.output ≠ .unnamed) (cause : Abort) :
    (runValidate disk settings level quiet options s).1.ending = .abort cause ↔
      cause = .csv ⟨⟩ ∧
        (∃ schema, Registry.builtin.lookup options.registry options.version = .ok schema) ∧
        loaded disk options s = .error (.rows (.csv ⟨⟩)) := by
  constructor
  · intro habort
    have hexit {code : Nat}
        (h : (runValidate disk settings level quiet options s).1.ending = .exit code) : False := by
      rw [h] at habort
      cases habort
    cases hschema : Registry.builtin.lookup options.registry options.version with
    | error e =>
        rw [runValidate, hschema] at habort
        cases habort
    | ok schema =>
        cases hload : loaded disk options s with
        | ok rows =>
            obtain ⟨code, hcode⟩ := exists_exit_runValidate_of_loaded_eq_ok hschema houtput hload
            exact (hexit hcode).elim
        | error e =>
            rcases Rows.load_failure hload with ⟨rfl, -⟩ | ⟨hkind, -⟩
            · rw [runValidate_of_loaded_eq_csv hschema hload] at habort
              cases habort
              exact ⟨rfl, ⟨schema, rfl⟩, rfl⟩
            · rw [runValidate_of_loaded_eq_error hkind hschema hload] at habort
              cases habort
  · rintro ⟨rfl, ⟨schema, hschema⟩, hload⟩
    rw [runValidate_of_loaded_eq_csv hschema hload]

end Validate

section Run

variable {environment : Environment} {arguments : List Text} {invocation : Invocation}
variable {options : ValidateOptions}

/-- A validation runs under its settings, behind the log lines of the registry. -/
theorem run_validate {settings : Settings}
    (hrequest : Request.ofArguments arguments = .invoke invocation)
    (hcommand : invocation.command = .validate options)
    (hsettings : Settings.ofEnvironment environment = .ok settings) :
    (run disk environment arguments s).1 =
      (runValidate disk settings (invocation.logLevel.getD settings.logLevel) invocation.quiet
        options s).1.after []
          (shownLines (invocation.logLevel.getD settings.logLevel) builtinLog) := by
  rw [run, hrequest]
  simp only [runInvocation, hsettings, runCommand, hcommand]
  rfl

end Run

end RecordRegistry.CommandLine

namespace RecordRegistry.LongCellWitness

open CommandLine

/-- A table of one cell, by one character too long. -/
def text : List Char := List.replicate (Csv.cellLimit + 1) 'x'

def path : Path := ⟨.here, ["a.csv"]⟩

def tree : Tree := ⟨[], [(["a.csv"], .file (Text.Utf8.encode text))]⟩

theorem longCellAt_tree : Rows.LongCellAt Tree.disk path none tree := by
  have htext : ∀ c ∈ text.map CodePoint.char, c = .char 'x' := by
    rw [List.forall_mem_map]
    exact fun c hc => congrArg CodePoint.char (List.eq_of_mem_replicate hc)
  have hne : text.map CodePoint.char ≠ [] := by simp [text]
  have hmark : text.head? ≠ some '\uFEFF' := by
    intro h
    exact absurd (List.eq_of_mem_replicate (List.mem_of_mem_head? h)) (by decide)
  have hunlimited : Csv.unlimited (text.map .char) = [[Text.ofList (text.map .char)]] := by
    apply Csv.unlimited_bare hne
    intro c hc
    rw [htext c hc]
    rfl
  refine ⟨.csv, Text.Utf8.encode text, rfl, rfl, rfl, text, Text.Utf8.decodeFile_encode hmark, ?_⟩
  rw [hunlimited]
  refine ⟨_, List.mem_singleton_self _, _, List.mem_singleton_self _, ?_⟩
  rw [Csv.unified_of_not_mem, Text.length_ofList, List.length_map, text, List.length_replicate]
  · exact Nat.lt_succ_self _
  · rw [Text.toList_ofList]
    intro h
    exact absurd (htext _ h) (by decide)

def arguments : List Text := ["validate", "datasheet", "current", "a.csv"]

def options : ValidateOptions := ⟨"datasheet", "current", path, none, false, .nowhere⟩

theorem ofArguments_arguments :
    Request.ofArguments arguments = .invoke ⟨.validate options, false, none⟩ := by
  rfl

end RecordRegistry.LongCellWitness
