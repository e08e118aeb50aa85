import RecordRegistry.Proofs.CommandLine.AddedFlag
import RecordRegistry.Proofs.CommandLine.Failure
import RecordRegistry.Proofs.Disk.Files
import RecordRegistry.Proofs.Json.Surrogates
import RecordRegistry.Proofs.Registry.RegisterAll
import RecordRegistry.Proofs.Report.Partition
import RecordRegistry.Proofs.Settings

/-!
# The exit code of a validation

A validation ends with code 0 or 1 once it has settings, a built-in schema, rows and a report that
is written and told, and the code then says whether all rows have been accepted. What it leaves on
the disk is the report alone. To keep quiet changes nothing but what it prints, as long as it can be
printed: a surrogate in a line of the report ends with code 2 what would otherwise go on.
-/

namespace RecordRegistry

/-- Under settings that are accepted, undeclared members are refused if the variable for it says
so, word for word. -/
theorem Settings.unknownFields_eq_reject_iff {environment : Environment} {settings : Settings}
    (h : ofEnvironment environment = .ok settings) :
    settings.unknownFields = .reject ↔
      environment.lookup ("BENCHREG_UNKNOWN_FIELDS" : Text) = some "reject" := by
  have hname := (ofEnvironment_eq_ok_iff.mp h).unknownFields
  have hlookup : environment.lookup ("BENCHREG_UNKNOWN_FIELDS" : Text) = some "reject" ↔
      value? environment "BENCHREG_UNKNOWN_FIELDS" = some "reject" := by
    simp [value?_eq_some_iff]
  rw [hlookup]
  cases hvalue : value? environment "BENCHREG_UNKNOWN_FIELDS" with
  | none =>
      rw [hvalue, Option.getD_none] at hname
      have hmode : settings.unknownFields ≠ .reject := by
        intro hmode
        rw [hmode] at hname
        exact absurd hname (by decide)
      simp [hmode]
  | some text =>
      rw [hvalue, Option.getD_some] at hname
      subst hname
      cases settings.unknownFields <;> simp [UnknownFields.name]

namespace CommandLine

variable {σ : Type} {disk : Disk (StateM σ)} {s : σ}

section Stages

variable {report : Report} {output : ReportTarget} {quiet : Bool} {code : Nat}

/-- The code that a report asks for. -/
def verdictCode (report : Report) : Nat := if report.ok then 0 else 1

/-- A report that is wanted somewhere gets written there. -/
def Written (disk : Disk (StateM σ)) (report : Report) (s : σ) : ReportTarget → Prop
  | .nowhere => True
  | .file path => (writeReport disk path report s).1 = .ok ()
  | .unnamed => False

/-- The state that writing a report leaves behind. -/
def stateWritten (disk : Disk (StateM σ)) (report : Report) (s : σ) : ReportTarget → σ
  | .file path => (writeReport disk path report s).2
  | .nowhere | .unnamed => s

/-- The lines that tell of a report and of the file that it has been written to. -/
def printedLines (report : Report) : ReportTarget → List Text
  | .file path => reportLines report ++ ["  Report: " ++ path.toText]
  | .nowhere | .unnamed => reportLines report

theorem told_append (quiet : Bool) (lines others : List Text) :
    told quiet (lines ++ others) = told quiet lines ++ told quiet others := by
  cases quiet <;> rfl

theorem mem_printedLines_of_mem {line : Text} (h : line ∈ told quiet (reportLines report)) :
    line ∈ told quiet (printedLines report output) := by
  cases output with
  | nowhere | unnamed => exact h
  | file path =>
      rw [printedLines, told_append]
      exact List.mem_append_left _ h

theorem ending_finishValidate_iff (hcode : code ≠ 2) :
    (finishValidate disk quiet output report s).1.ending = .exit code ↔
      Written disk report s output ∧
        (∀ line ∈ told quiet (printedLines report output), line.SurrogateFree) ∧
        code = verdictCode report := by
  cases hfault : (Printing.ofLines (told quiet (reportLines report))).fault with
  | some e =>
      rw [finishValidate_of_fault hfault]
      refine iff_of_false (fun h => hcode (Ending.exit.inj h).symm) ?_
      rintro ⟨-, hlines, -⟩
      have hnone := Printing.fault_ofLines_eq_none_iff.mpr
        fun line hline => hlines line (mem_printedLines_of_mem hline)
      rw [hfault] at hnone
      cases hnone
  | none =>
      have hlines := Printing.fault_ofLines_eq_none_iff.mp hfault
      rw [finishValidate_of_told hlines]
      cases output with
      | nowhere =>
          change Ending.exit (verdictCode report) = .exit code ↔ _
          simpa [Written, printedLines, eq_comm] using fun _ => hlines
      | unnamed => simp [afterTold, RunResult.after, Written]
      | file path =>
          rw [afterTold, Written, printedLines, told_append, List.forall_mem_append,
            and_iff_right hlines]
          rcases writeReport disk path report s with ⟨e | ⟨⟩, s'⟩
          · change Ending.exit 2 = .exit code ↔ _
            simp [hcode.symm]
          · by_cases hpath : ∀ line ∈ told quiet ["  Report: " ++ path.toText], line.SurrogateFree
            · simp only [RunResult.printing_of_surrogateFree hpath]
              change Ending.exit (verdictCode report) = .exit code ↔ _
              simpa [eq_comm] using fun _ => hpath
            · refine iff_of_false ?_ (fun h => hpath h.2.1)
              simp only [RunResult.after, RunResult.ending_printing_of_not_surrogateFree hpath]
              exact fun h => hcode (Ending.exit.inj h).symm

theorem snd_finishValidate (h : ∀ line ∈ told quiet (reportLines report), line.SurrogateFree)
    (disk : Disk (StateM σ)) (output : ReportTarget) (s : σ) :
    (finishValidate disk quiet output report s).2 = stateWritten disk report s output := by
  rw [finishValidate_of_told h]
  cases output with
  | nowhere | unnamed => rfl
  | file path =>
      rw [afterTold, stateWritten]
      rcases writeReport disk path report s with ⟨e | ⟨⟩, s'⟩ <;> rfl

variable {settings : Settings} {level : LogLevel} {options : ValidateOptions} {schema : Schema}
variable {rows : List Json.Record}

/-- The state that loading the rows leaves behind. -/
def stateLoaded (disk : Disk (StateM σ)) (options : ValidateOptions) (s : σ) : σ :=
  (Rows.load disk options.input (options.format.map RowFormat.name) s).2

/-- To load rows does nothing to the disk but to read the input, if that. -/
theorem stateLoaded_cases (disk : Disk (StateM σ)) (options : ValidateOptions) (s : σ) :
    stateLoaded disk options s = s ∨
      stateLoaded disk options s = (disk.read options.input s).2 := by
  rw [stateLoaded, Rows.load_eq]
  cases Rows.chooseFormat options.input (options.format.map RowFormat.name) with
  | error e => exact .inl rfl
  | ok format =>
      refine .inr ?_
      rcases disk.read options.input s with ⟨_ | _, s'⟩ <;> rfl

/-- The mode of a validation under settings. -/
def ValidateOptions.mode (options : ValidateOptions) (settings : Settings) : UnknownFields :=
  if options.strict then .reject else settings.unknownFields

/-- With a schema and rows, a validation ends as writing its report does. -/
theorem runValidate_of_loaded_eq_ok
    (hschema : Registry.builtin.lookup options.registry options.version = .ok schema)
    (hload : loaded disk options s = .ok rows) :
    runValidate disk settings level quiet options s =
      let report := schema.report (options.mode settings) rows
      let finished := finishValidate disk quiet options.output report (stateLoaded disk options s)
      (finished.1.after [] (shownLines level report.logLines), finished.2) := by
  obtain ⟨s', hstate⟩ := exists_load_of_loaded_eq hload
  rw [runValidate, hschema]
  simp only [bind, StateT.bind, stateLoaded, hstate]
  rfl

theorem ending_runValidate_iff (hcode : code ≠ 2) :
    (runValidate disk settings level quiet options s).1.ending = .exit code ↔
      ∃ schema rows, Registry.builtin.lookup options.registry options.version = .ok schema ∧
        loaded disk options s = .ok rows ∧
        Written disk (schema.report (options.mode settings) rows) (stateLoaded disk options s)
          options.output ∧
        (∀ line ∈ told quiet (printedLines (schema.report (options.mode settings) rows)
          options.output), line.SurrogateFree) ∧
        code = verdictCode (schema.report (options.mode settings) rows) := by
  cases hschema : Registry.builtin.lookup options.registry options.version with
  | error e =>
      rw [runValidate, hschema]
      change Ending.exit 2 = .exit code ↔ _
      simp [hcode.symm]
  | ok schema =>
      cases hload : loaded disk options s with
      | error e =>
          rcases Rows.load_failure hload with ⟨rfl, -⟩ | ⟨hkind, -⟩
          · rw [runValidate_of_loaded_eq_csv hschema hload]
            simp
          · rw [runValidate_of_loaded_eq_error hkind hschema hload]
            change Ending.exit 2 = .exit code ↔ _
            simp [hcode.symm]
      | ok rows =>
          rw [runValidate_of_loaded_eq_ok hschema hload]
          refine (ending_finishValidate_iff hcode).trans ?_
          simp

end Stages

section Run

variable {environment : Environment} {arguments : List Text} {invocation : Invocation}
variable {code : Nat}

/-- What a validation is about: its options, the schema, the mode and the rows. -/
structure Inspection where
  options : ValidateOptions
  schema : Schema
  mode : UnknownFields
  rows : List Json.Record

namespace Inspection

/-- The report of an inspection. -/
def report (inspection : Inspection) : Report :=
  inspection.schema.report inspection.mode inspection.rows

/-- Whether a row is accepted. -/
def accepts (inspection : Inspection) (row : Json.Record) : Bool :=
  (inspection.schema.validate inspection.mode row).ok

/-- The lines that tell of the report. -/
def lines (inspection : Inspection) : List Text :=
  printedLines inspection.report inspection.options.output

/-- What a validation needs for a report: settings, a built-in schema, the mode that the options or
the environment ask for, and the rows of the input. -/
structure Reached (disk : Disk (StateM σ)) (environment : Environment) (invocation : Invocation)
    (s : σ) (inspection : Inspection) : Prop where
  command : invocation.command = .validate inspection.options
  settings : ∃ settings, Settings.ofEnvironment environment = .ok settings
  schema : ∃ entry ∈ Builtin.entries, entry.registry = inspection.options.registry ∧
    entry.version = inspection.options.version ∧
    inspection.schema =
      entry.schema.identified inspection.options.registry inspection.options.version
  mode : inspection.mode = .reject ↔ inspection.options.strict = true ∨
    environment.lookup ("BENCHREG_UNKNOWN_FIELDS" : Text) = some "reject"
  rows : loaded disk inspection.options s = .ok inspection.rows

/-- A validation has come to its end when, besides, the report is in its place and can be told,
unless the program keeps quiet. -/
structure Completed (disk : Disk (StateM σ)) (environment : Environment) (invocation : Invocation)
    (s : σ) (inspection : Inspection) : Prop extends
    Reached disk environment invocation s inspection where
  written : Written disk inspection.report (stateLoaded disk inspection.options s)
    inspection.options.output
  printable : ∀ line ∈ told invocation.quiet inspection.lines, line.SurrogateFree

end Inspection

/-- All that a validation would print has bytes. -/
def Printable (disk : Disk (StateM σ)) (environment : Environment) (invocation : Invocation)
    (s : σ) : Prop :=
  ∀ inspection : Inspection, inspection.Reached disk environment invocation s →
    ∀ line ∈ inspection.lines, line.SurrogateFree

/-- A validation has arguments for a validation, or a place of it was left without a text. -/
theorem command_of_ofArguments
    (h : Request.ofArguments ("validate" :: arguments) = .invoke invocation) :
    (∃ options, invocation.command = .validate options) ∨
      (∃ registry, invocation.command = .withoutVersion registry) ∨
      ∃ registry version, invocation.command = .withoutInput registry version := by
  obtain ⟨taken, -, -, command, hcommand, rfl⟩ :=
    Request.ofCommand_eq_invoke_iff.mp (Request.ofArguments_eq_invoke_iff.mp h).2
  simp only [Command.ofTaken?, Text.ofString_inj, String.reduceEq, ↓reduceIte] at hcommand
  split at hcommand <;> cases hcommand <;> simp_all [Request.invocationOf]

theorem ValidateOptions.mode_eq_iff {settings : Settings} {options : ValidateOptions}
    {mode : UnknownFields} (h : Settings.ofEnvironment environment = .ok settings) :
    mode = options.mode settings ↔ (mode = .reject ↔ options.strict = true ∨
      environment.lookup ("BENCHREG_UNKNOWN_FIELDS" : Text) = some "reject") := by
  rw [← Settings.unknownFields_eq_reject_iff h, ValidateOptions.mode]
  cases options.strict <;> cases settings.unknownFields <;> cases mode <;> simp

theorem Inspection.reached_iff {settings : Settings} {options : ValidateOptions}
    (hcommand : invocation.command = .validate options)
    (hsettings : Settings.ofEnvironment environment = .ok settings) (inspection : Inspection) :
    inspection.Reached disk environment invocation s ↔
      inspection.options = options ∧ inspection.mode = options.mode settings ∧
        Registry.builtin.lookup options.registry options.version = .ok inspection.schema ∧
        loaded disk options s = .ok inspection.rows := by
  constructor
  · intro h
    obtain rfl : inspection.options = options := by
      simpa [hcommand, eq_comm] using h.command
    exact ⟨rfl, (ValidateOptions.mode_eq_iff hsettings).mpr h.mode,
      Registry.lookup_builtin_eq_ok_iff.mpr h.schema, h.rows⟩
  · rintro ⟨rfl, hmode, hschema, hrows⟩
    exact ⟨hcommand, ⟨settings, hsettings⟩, Registry.lookup_builtin_eq_ok_iff.mp hschema,
      (ValidateOptions.mode_eq_iff hsettings).mp hmode, hrows⟩

theorem ending_runWithoutVersion_ne (registry : Text) (hcode : code ≠ 2) :
    (runWithoutVersion registry).ending ≠ .exit code := by
  rw [runWithoutVersion]
  cases Registry.builtin.listVersions registry with
  | error e => simpa [RunResult.failed] using hcode.symm
  | ok versions => simp

theorem ending_runWithoutInput_ne (registry version : Text) (hcode : code ≠ 2) :
    (runWithoutInput registry version).ending ≠ .exit code := by
  rw [runWithoutInput]
  cases Registry.builtin.lookup registry version with
  | error e => simpa [RunResult.failed] using hcode.symm
  | ok schema => simp

theorem ending_run (hrequest : Request.ofArguments arguments = .invoke invocation)
    {settings : Settings} (hsettings : Settings.ofEnvironment environment = .ok settings) :
    (run disk environment arguments s).1.ending =
      (runCommand disk settings (invocation.logLevel.getD settings.logLevel) invocation
        s).1.ending := by
  rw [run, hrequest]
  simp only [runInvocation, hsettings]
  rfl

/-- A validation ends with a code of its own, other than that of a failure, once it is completed. -/
theorem ending_run_iff
    (hrequest : Request.ofArguments ("validate" :: arguments) = .invoke invocation)
    (hcode : code ≠ 2) :
    (run disk environment ("validate" :: arguments) s).1.ending = .exit code ↔
      ∃ inspection : Inspection, inspection.Completed disk environment invocation s ∧
        code = verdictCode inspection.report := by
  cases hsettings : Settings.ofEnvironment environment with
  | error refusal =>
      rw [run, hrequest]
      simp only [runInvocation, hsettings]
      refine iff_of_false (fun h => hcode (Ending.exit.inj h).symm) ?_
      rintro ⟨inspection, hcompleted, -⟩
      obtain ⟨settings, hok⟩ := hcompleted.settings
      rw [hsettings] at hok
      cases hok
  | ok settings =>
      have hnone (hother : ∀ options, invocation.command ≠ .validate options) :
          ¬ ∃ inspection : Inspection, inspection.Completed disk environment invocation s ∧
            code = verdictCode inspection.report := by
        rintro ⟨inspection, hcompleted, -⟩
        exact hother _ hcompleted.command
      rw [ending_run hrequest hsettings]
      rcases command_of_ofArguments hrequest with
        ⟨options, hcommand⟩ | ⟨registry, hcommand⟩ | ⟨registry, version, hcommand⟩
      · simp only [runCommand, hcommand]
        refine (ending_runValidate_iff hcode).trans ?_
        constructor
        · rintro ⟨schema, rows, hschema, hrows, hwritten, hprintable, hverdict⟩
          let inspection : Inspection := ⟨options, schema, options.mode settings, rows⟩
          have hreached : inspection.Reached disk environment invocation s :=
            (inspection.reached_iff hcommand hsettings).mpr ⟨rfl, rfl, hschema, hrows⟩
          exact ⟨inspection, ⟨hreached, hwritten, hprintable⟩, hverdict⟩
        · rintro ⟨inspection, ⟨hreached, hwritten, hprintable⟩, hverdict⟩
          obtain ⟨rfl, hmode, hschema, hrows⟩ :=
            (inspection.reached_iff hcommand hsettings).mp hreached
          rw [Inspection.lines, Inspection.report, hmode] at hprintable
          rw [Inspection.report, hmode] at hwritten hverdict
          exact ⟨inspection.schema, inspection.rows, hschema, hrows, hwritten, hprintable, hverdict⟩
      · simp only [runCommand, hcommand]
        exact iff_of_false (ending_runWithoutVersion_ne registry hcode) (hnone (by simp [hcommand]))
      · simp only [runCommand, hcommand]
        exact iff_of_false (ending_runWithoutInput_ne registry version hcode)
          (hnone (by simp [hcommand]))

/-- A validation that has got its rows does with its report what there is to be done. -/
theorem run_of_reached {inspection : Inspection}
    (hrequest : Request.ofArguments ("validate" :: arguments) = .invoke invocation)
    (h : inspection.Reached disk environment invocation s) :
    let finished := finishValidate disk invocation.quiet inspection.options.output
      inspection.report (stateLoaded disk inspection.options s)
    (run disk environment ("validate" :: arguments) s).1.ending = finished.1.ending ∧
      (run disk environment ("validate" :: arguments) s).2 = finished.2 := by
  obtain ⟨settings, hsettings⟩ := h.settings
  obtain ⟨-, hmode, hschema, hrows⟩ := (inspection.reached_iff h.command hsettings).mp h
  rw [run, hrequest]
  simp only [runInvocation, hsettings, runCommand, h.command, bind, StateT.bind,
    runValidate_of_loaded_eq_ok hschema hrows, ← hmode]
  exact ⟨rfl, rfl⟩

/-- The state that a completed validation leaves behind. -/
theorem snd_run_of_completed {inspection : Inspection}
    (hrequest : Request.ofArguments ("validate" :: arguments) = .invoke invocation)
    (h : inspection.Completed disk environment invocation s) :
    (run disk environment ("validate" :: arguments) s).2 =
      stateWritten disk inspection.report (stateLoaded disk inspection.options s)
        inspection.options.output := by
  rw [(run_of_reached hrequest h.toReached).2]
  exact snd_finishValidate
    (fun line hline => h.printable line (mem_printedLines_of_mem hline)) _ _ _

/-- A line of the report that cannot be printed ends a validation before the report is written. -/
theorem run_of_not_printable {inspection : Inspection}
    (hrequest : Request.ofArguments ("validate" :: arguments) = .invoke invocation)
    (h : inspection.Reached disk environment invocation s) (hquiet : invocation.quiet = false)
    (hlines : ¬ ∀ line ∈ reportLines inspection.report, line.SurrogateFree) :
    (run disk environment ("validate" :: arguments) s).1.ending = .exit 2 ∧
      (run disk environment ("validate" :: arguments) s).2 =
        stateLoaded disk inspection.options s := by
  have htold : told invocation.quiet (reportLines inspection.report) =
      reportLines inspection.report := by
    rw [hquiet, told]
    rfl
  rw [← htold, ← Printing.fault_ofLines_eq_none_iff, ← Ne, Option.ne_none_iff_exists'] at hlines
  obtain ⟨e, hfault⟩ := hlines
  obtain ⟨hending, hstate⟩ := run_of_reached hrequest h
  rw [finishValidate_of_fault hfault] at hending hstate
  exact ⟨hending, hstate⟩

end Run

section Files

variable {view : DiskView σ}

theorem same_stateLoaded (hview : view.Faithful disk) (options : ValidateOptions) (s : σ) :
    view.Same s (stateLoaded disk options s) := by
  rcases stateLoaded_cases disk options s with hstate | hstate <;> rw [hstate]
  · exact fun _ => rfl
  · exact hview.read options.input s

/-- What is written to a file has bytes. -/
theorem writeText_eq_ok {path : Path} {text : Text} (h : (disk.writeText path text s).1 = .ok ()) :
    ∃ bytes, text.utf8 = .ok bytes ∧ disk.writeText path text s = disk.write path bytes s := by
  rw [Disk.writeText] at h ⊢
  cases hbytes : text.utf8 with
  | ok bytes => exact ⟨bytes, rfl, rfl⟩
  | error e =>
      rw [hbytes] at h
      simp only [bind, StateT.bind] at h
      generalize disk.write path [] s = emptied at h
      rcases emptied with ⟨_ | ⟨⟩, s'⟩ <;> cases h

theorem put_writeReport (hview : view.Faithful disk) {path : Path} {report : Report}
    (h : (writeReport disk path report s).1 = .ok ()) :
    ∃ bytes, (reportText report).utf8 = .ok bytes ∧
      view.Put path bytes s (writeReport disk path report s).2 := by
  have hmade := hview.ensureDirectories path.parent s
  rw [writeReport] at h ⊢
  simp only [bind, StateT.bind] at h ⊢
  rcases hdisk : disk.ensureDirectories path.parent s with ⟨e | ⟨⟩, s'⟩
  · rw [hdisk] at h
    cases h
  · rw [hdisk] at h hmade
    obtain ⟨bytes, hbytes, hwrite⟩ := writeText_eq_ok h
    simp only [hwrite] at h ⊢
    exact ⟨bytes, hbytes, hmade.put (hview.write path bytes s' h)⟩

end Files

section Quiet

variable {settings : Settings} {level : LogLevel} {options : ValidateOptions}

/-- Two runs that differ at most in the lines of their output. -/
structure Alike (first second : RunResult × σ) : Prop where
  ending : first.1.ending = second.1.ending
  errors : first.1.errors = second.1.errors
  state : first.2 = second.2

theorem Alike.refl (run : RunResult × σ) : Alike run run := ⟨rfl, rfl, rfl⟩

theorem Alike.after {first second : RunResult × σ} (h : Alike first second)
    (output errors : List Text) :
    Alike (first.1.after output errors, first.2) (second.1.after output errors, second.2) :=
  ⟨h.ending, congrArg (errors ++ ·) h.errors, h.state⟩

theorem alike_finishValidate {report : Report} {output : ReportTarget}
    (h : ∀ line ∈ printedLines report output, line.SurrogateFree) (disk : Disk (StateM σ))
    (quiet quiet' : Bool) (s : σ) :
    Alike (finishValidate disk quiet output report s)
      (finishValidate disk quiet' output report s) := by
  have htold (quiet : Bool) (lines : List Text) (hlines : ∀ line ∈ lines, line.SurrogateFree) :
      ∀ line ∈ told quiet lines, line.SurrogateFree := by
    cases quiet
    · exact hlines
    · exact fun line hline => absurd hline List.not_mem_nil
  have hreport : ∀ line ∈ told false (reportLines report), line.SurrogateFree :=
    fun line hline => h line (mem_printedLines_of_mem hline)
  rw [finishValidate_of_told (htold quiet _ hreport),
    finishValidate_of_told (htold quiet' _ hreport)]
  cases output with
  | nowhere | unnamed => exact ⟨rfl, rfl, rfl⟩
  | file path =>
      rw [printedLines, List.forall_mem_append] at h
      rw [afterTold, afterTold]
      rcases writeReport disk path report s with ⟨e | ⟨⟩, s'⟩
      · exact ⟨rfl, rfl, rfl⟩
      · simp only [RunResult.printing_of_surrogateFree (htold quiet _ h.2),
          RunResult.printing_of_surrogateFree (htold quiet' _ h.2)]
        exact ⟨rfl, rfl, rfl⟩

theorem alike_runValidate
    (h : ∀ schema rows, Registry.builtin.lookup options.registry options.version = .ok schema →
      loaded disk options s = .ok rows →
      ∀ line ∈ printedLines (schema.report (options.mode settings) rows) options.output,
        line.SurrogateFree) (level : LogLevel) (quiet quiet' : Bool) :
    Alike (runValidate disk settings level quiet options s)
      (runValidate disk settings level quiet' options s) := by
  cases hschema : Registry.builtin.lookup options.registry options.version with
  | error e =>
      rw [runValidate, runValidate, hschema]
      exact .refl _
  | ok schema =>
      cases hload : loaded disk options s with
      | error e =>
          obtain ⟨s', hstate⟩ := exists_load_of_loaded_eq hload
          rw [runValidate, runValidate, hschema]
          simp only [bind, StateT.bind, hstate]
          -- a long cell is the one failure with an ending of its own
          cases e with
          | format | file | encoding => exact .refl _
          | rows error => cases error <;> exact .refl _
      | ok rows =>
          rw [runValidate_of_loaded_eq_ok hschema hload, runValidate_of_loaded_eq_ok hschema hload]
          exact (alike_finishValidate (h schema rows hschema hload) disk quiet quiet' _).after _ _

theorem alike_run {arguments arguments' : List Text} {invocation : Invocation} {quiet : Bool}
    {environment : Environment} (h : Request.ofArguments arguments = .invoke invocation)
    (h' : Request.ofArguments arguments' = .invoke { invocation with quiet := quiet })
    (hprintable : Printable disk environment invocation s) :
    Alike (run disk environment arguments' s) (run disk environment arguments s) := by
  rw [run, run, h, h']
  simp only [runInvocation]
  cases hsettings : Settings.ofEnvironment environment with
  | error refusal => exact .refl _
  | ok settings =>
      simp only [bind, StateT.bind, runCommand]
      cases hcommand : invocation.command with
      | validate options =>
          refine (alike_runValidate ?_ _ quiet invocation.quiet).after _ _
          intro schema rows hschema hrows
          let inspection : Inspection := ⟨options, schema, options.mode settings, rows⟩
          exact hprintable inspection
            ((inspection.reached_iff hcommand hsettings).mpr ⟨rfl, rfl, hschema, hrows⟩)
      | registries => exact .refl _
      | versions registry => exact .refl _
      | latest registry order => exact .refl _
      | schema registry version => exact .refl _
      | withoutVersion registry => exact .refl _
      | withoutInput registry version => exact .refl _

end Quiet

end CommandLine

end RecordRegistry

namespace RecordRegistry.ReportFileWitness

open CommandLine
open Json (Value)

def arguments : List Text := ["datasheet", "current", "rows.json", "--output", "out/report.json"]

/-- A tree with one row that has no fields. -/
def tree : Tree := ⟨[], [(["rows.json"], .file (Text.Utf8.encode ['[', '{', '}', ']']))]⟩

def options : ValidateOptions where
  registry := "datasheet"
  version := "current"
  input := ⟨.here, ["rows.json"]⟩
  format := none
  strict := false
  output := .file ⟨.here, ["out", "report.json"]⟩

theorem ofArguments_arguments :
    Request.ofArguments ("validate" :: arguments) = .invoke ⟨.validate options, false, none⟩ := by
  rfl

def inspection : Inspection :=
  ⟨options, Builtin.datasheet.identified "datasheet" "current", .ignore, [[]]⟩

theorem completed_inspection :
    inspection.Completed Tree.disk [] ⟨.validate options, false, none⟩ tree where
  command := rfl
  settings := ⟨_, rfl⟩
  schema := ⟨⟨"datasheet", "current", Builtin.datasheet⟩, by decide, rfl, rfl, rfl⟩
  mode := by simp [inspection, options]
  rows := rfl
  written := by
    have hfree : (reportText inspection.report).SurrogateFree := by
      rw [reportText, Text.surrogateFree_append, Value.surrogateFree_canonical]
      decide +kernel
    obtain ⟨bytes, hbytes⟩ := Text.exists_utf8_iff.mpr hfree
    change (writeReport Tree.disk ⟨.here, ["out", "report.json"]⟩ inspection.report tree).1 = .ok ()
    simp only [writeReport, Disk.writeText, hbytes]
    rfl
  printable := by decide +kernel

end RecordRegistry.ReportFileWitness

namespace RecordRegistry.LoneSurrogateWitness

open CommandLine

def arguments : List Text := ["crates-io-validation", "current", "rows.json"]

/-- A document with one row whose status is the escape of a surrogate. -/
def document : List Char :=
  ['[', '\x7b', '"', 's', 't', 'a', 't', 'u', 's', '"', ':',
    '"', '\\', 'u', 'd', '8', '0', '0', '"', '\x7d', ']']

def tree : Tree := ⟨[], [(["rows.json"], .file (Text.Utf8.encode document))]⟩

def options : ValidateOptions where
  registry := "crates-io-validation"
  version := "current"
  input := ⟨.here, ["rows.json"]⟩
  format := none
  strict := false
  output := .nowhere

def inspection : Inspection :=
  ⟨options, Builtin.crates.identified "crates-io-validation" "current", .ignore,
    [[("status", .string Text.lone)]]⟩

theorem ofArguments_arguments :
    Request.ofArguments ("validate" :: arguments) = .invoke ⟨.validate options, false, none⟩ := by
  rfl

theorem loaded_tree : loaded Tree.disk options tree = .ok inspection.rows := by
  rfl

theorem reached_inspection (quiet : Bool) :
    inspection.Reached Tree.disk [] ⟨.validate options, quiet, none⟩ tree where
  command := rfl
  settings := ⟨_, rfl⟩
  schema := ⟨⟨"crates-io-validation", "current", Builtin.crates⟩, by decide, rfl, rfl, rfl⟩
  mode := by simp [inspection, options]
  rows := loaded_tree

end RecordRegistry.LoneSurrogateWitness
