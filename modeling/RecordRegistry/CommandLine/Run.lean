import RecordRegistry.CommandLine.Command
import RecordRegistry.Registry.Builtin
import RecordRegistry.Settings
import RecordRegistry.Text.Blank

/-!
# Running a command

A run reads settings from the environment, does what the arguments ask for, and tells what it
prints and how it ends. It touches the disk only to validate a file and to write a report on it.
What it prints are bytes, so that a line with a surrogate ends a run that would print it.
-/

namespace RecordRegistry.CommandLine

open Json (Value)

/-- What ends a run without an exit code. -/
inductive Abort where
  | csv (error : Csv.CellTooLong)
  | noVersion
  | noInput
  | noOutput
deriving DecidableEq, Repr

/-- The wording of an abort. -/
def Abort.message : Abort → Text
  | csv error => error.message
  | noVersion => "unhashable type: 'list'"
  | noInput => "expected str, bytes or os.PathLike object, not list"
  | noOutput => "'list' object has no attribute 'parent'"

/-- How a run ends. -/
inductive Ending where
  | exit (code : Nat)
  | abort (cause : Abort)
deriving DecidableEq, Repr

/-- How a run ends and what it prints, in whole lines, on its two channels. -/
structure RunResult where
  ending : Ending
  output : List Text
  errors : List Text
deriving DecidableEq, Repr

namespace RunResult

/-- What lines look like, a surrogate being shown by its number. -/
def printed (lines : List Text) : String := String.join (lines.map fun line => line.shown ++ "\n")

/-- A run that fails with a message. -/
def failed (code : Nat) (message : Text) : RunResult := ⟨.exit code, [], ["Error: " ++ message]⟩

/-- A run before which something was printed. -/
def after (output errors : List Text) (result : RunResult) : RunResult :=
  { result with output := output ++ result.output, errors := errors ++ result.errors }

end RunResult

/-- How far lines are printed: those before the first one without bytes, and what is wrong with that
one. -/
structure Printing where
  lines : List Text
  fault : Option Text.SurrogateError
deriving DecidableEq, Repr

/-- Prints lines from the first to the last. -/
def Printing.ofLines : List Text → Printing
  | [] => ⟨[], none⟩
  | line :: rest =>
    match line.utf8 with
    | .error e => ⟨[], some e⟩
    | .ok _ =>
      let later := ofLines rest
      ⟨line :: later.lines, later.fault⟩

/-- A run that prints lines and then goes on, unless one of them cannot be printed. -/
def RunResult.printing (lines : List Text) (result : RunResult) : RunResult :=
  let printing := Printing.ofLines lines
  match printing.fault with
  | none => result.after printing.lines []
  | some e => (failed 2 e.message).after printing.lines []

/-- A run that prints lines and ends well. -/
def RunResult.done (lines : List Text) : RunResult := printing lines ⟨.exit 0, [], []⟩

/-- The log lines that are printed at a level. -/
def shownLines (level : LogLevel) (lines : List LogLine) : List Text :=
  (lines.filter (LogLine.isShownAt level)).map LogLine.text

/-- The log lines of the built-in registry. -/
def builtinLog : List LogLine := Registry.empty.addBuiltins.log

/-- The versions in a list with commas, without blanks around them and without blank ones. -/
def splitOrder (order : Text) : List Text :=
  ((order.toList.splitOn (.char ',')).map fun part => Text.trim (Text.ofList part)).filter (· ≠ "")

/-- The versions to choose the latest from: those that are asked for, or the one of the
settings. -/
def orderedVersions (order : Option Text) (settings : Settings) : List Text :=
  let order := order.getD ""
  if order = "" then settings.latestVersion.toList else splitOrder order

/-- The latest version of a registry. -/
def runLatest (registry : Text) (ordered : List Text) : RunResult :=
  match Registry.builtin.latest registry ordered with
  | .error e => .failed 2 e.message
  | .ok none =>
    .failed 1 ("no available version for '" ++ registry ++ "' in " ++ Text.quotedList ordered)
  | .ok (some version) => .done [version]

/-- The schema of a version of a registry. -/
def runSchema (registry version : Text) : RunResult :=
  match Registry.builtin.lookup registry version with
  | .error e => .failed 2 e.message
  | .ok schema => .done [(schema.jsonSchema true).pretty]

/-- The line that tells of an issue of a row. -/
def issueLine (index : Nat) (issue : Issue) : Text :=
  "  row " ++ toString index ++ ": " ++ issue.field ++ ": " ++ issue.code.name ++
    " (" ++ issue.message ++ ")"

/-- The lines that tell of a report. -/
def reportLines (report : Report) : List Text := [
    "[" ++ (if report.ok then "OK" else "FAILED") ++ "] Validated " ++
      report.identity.registry.getD "None" ++ "@" ++ report.identity.version.getD "None",
    "  Rows: " ++ toString report.total,
    "  Accepted: " ++ toString report.accepted.length,
    "  Rejected: " ++ toString report.rejected.length] ++
  report.rejected.flatMap fun rejection =>
    rejection.failure.issues.map (issueLine rejection.index)

/-- The text of a written report. -/
def reportText (report : Report) : Text := report.toValue.canonical ++ "\n"

variable {m : Type → Type} [Monad m]

/-- Writes a report to a path, below directories that are made as needed. -/
def writeReport (disk : Disk m) (path : Path) (report : Report) : m (Except FileError Unit) := do
  match ← disk.ensureDirectories path.parent with
  | .error e => return .error e
  | .ok () => disk.writeText path (reportText report)

/-- Prints a report, writes it if it is to be written, and ends as it says. -/
def finishValidate (disk : Disk m) (quiet : Bool) (output : ReportTarget) (report : Report) :
    m RunResult := do
  let ending : RunResult := ⟨.exit (if report.ok then 0 else 1), [], []⟩
  let printing := Printing.ofLines (if quiet then [] else reportLines report)
  match printing.fault with
  | some e => return (RunResult.failed 2 e.message).after printing.lines []
  | none =>
    match output with
    | .nowhere => return ending.after printing.lines []
    | .unnamed => return ⟨.abort .noOutput, printing.lines, []⟩
    | .file path =>
      match ← writeReport disk path report with
      | .error e => return (RunResult.failed 2 e.message).after printing.lines []
      | .ok () =>
        let told := if quiet then [] else ["  Report: " ++ path.toText]
        return (ending.printing told).after printing.lines []

/-- Validates a file. The schema is looked up before the file is opened. -/
def runValidate (disk : Disk m) (settings : Settings) (level : LogLevel) (quiet : Bool)
    (options : ValidateOptions) : m RunResult :=
  match Registry.builtin.lookup options.registry options.version with
  | .error e => return .failed 2 e.message
  | .ok schema => do
    match ← Rows.load disk options.input (options.format.map RowFormat.name) with
    | .error (.rows (.csv e)) => return ⟨.abort (.csv e), [], []⟩
    | .error e => return .failed 2 e.message
    | .ok rows =>
      let mode := if options.strict then UnknownFields.reject else settings.unknownFields
      let report := schema.report mode rows
      let result ← finishValidate disk quiet options.output report
      return result.after [] (shownLines level report.logLines)

/-- What becomes of a command whose version has no text: an unknown registry is noticed first. -/
def runWithoutVersion (registry : Text) : RunResult :=
  match Registry.builtin.listVersions registry with
  | .error e => .failed 2 e.message
  | .ok _ => ⟨.abort .noVersion, [], []⟩

/-- What becomes of a command whose input has no text: an unknown schema is noticed first. -/
def runWithoutInput (registry version : Text) : RunResult :=
  match Registry.builtin.lookup registry version with
  | .error e => .failed 2 e.message
  | .ok _ => ⟨.abort .noInput, [], []⟩

/-- Runs a command under settings. -/
def runCommand (disk : Disk m) (settings : Settings) (level : LogLevel)
    (invocation : Invocation) : m RunResult :=
  match invocation.command with
  | .registries => return .done Registry.builtin.names
  | .versions registry =>
    match Registry.builtin.listVersions registry with
    | .error e => return .failed 2 e.message
    | .ok versions => return .done versions
  | .latest registry order => return runLatest registry (orderedVersions order settings)
  | .schema registry version => return runSchema registry version
  | .validate options => runValidate disk settings level invocation.quiet options
  | .withoutVersion registry => return runWithoutVersion registry
  | .withoutInput registry version => return runWithoutInput registry version

/-- Runs what was asked for in an environment. -/
def runInvocation (disk : Disk m) (environment : Environment) (invocation : Invocation) :
    m RunResult :=
  match Settings.ofEnvironment environment with
  | .error refusal => return .failed 2 refusal.headline
  | .ok settings => do
    let level := invocation.logLevel.getD settings.logLevel
    let result ← runCommand disk settings level invocation
    return result.after [] (shownLines level builtinLog)

/-- Runs the program on a disk, in an environment, with arguments. -/
def run (disk : Disk m) (environment : Environment) (arguments : List Text) : m RunResult :=
  match Request.ofArguments arguments with
  | .help command => return .done (helpOn command).lines
  | .version => return .done [programName ++ " " ++ release]
  | .nothing => return .printing programHelp.lines ⟨.exit 2, [], []⟩
  | .misuse command fault =>
    return ⟨.exit 2, [], (helpOn command).usage ++
      [programOf command ++ ": error: " ++ fault.message]⟩
  | .invoke invocation => runInvocation disk environment invocation

end RecordRegistry.CommandLine
