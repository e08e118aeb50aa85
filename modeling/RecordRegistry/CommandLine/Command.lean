import RecordRegistry.CommandLine.Arguments
import RecordRegistry.CommandLine.Usage
import RecordRegistry.Log
import RecordRegistry.Rows

/-!
# The commands of the program

The first argument that is no option names a command, and all arguments behind it belong to the
command. What a command has no use for is refused only after the command has been read.
-/

namespace RecordRegistry.CommandLine

/-- Where a report is written to: nowhere, into a file, or into a file that was not named. -/
inductive ReportTarget where
  | nowhere
  | file (path : Path)
  | unnamed
deriving DecidableEq, Repr

/-- The target that an option for it says, which may be absent or without a text. -/
def ReportTarget.ofOption : Option (Option Text) → ReportTarget
  | none => .nowhere
  | some none => .unnamed
  | some (some text) => .file (Path.ofText text)

/-- What is to be validated and how. -/
structure ValidateOptions where
  registry : Text
  version : Text
  input : Path
  format : Option RowFormat
  strict : Bool
  output : ReportTarget
deriving DecidableEq, Repr

/-- A command with its arguments. In the last two, a place for the version or for the input was
taken without getting a text. -/
inductive Command where
  | registries
  | versions (registry : Text)
  | latest (registry : Text) (order : Option Text)
  | schema (registry version : Text)
  | validate (options : ValidateOptions)
  | withoutVersion (registry : Text)
  | withoutInput (registry version : Text)
deriving DecidableEq, Repr

/-- A command, whether it keeps quiet, and the level of log lines that is asked for. -/
structure Invocation where
  command : Command
  quiet : Bool
  logLevel : Option LogLevel
deriving DecidableEq, Repr

/-- What arguments ask for. Help and what is wrong are about a command, or about the program as a
whole. -/
inductive Request where
  | help (command : Option Text)
  | version
  | nothing
  | misuse (command : Option Text) (fault : UsageFault)
  | invoke (invocation : Invocation)
deriving DecidableEq, Repr

/-- The program's release. -/
def release : Text := "1.0.0"

/-- The option that asks for help. -/
def helpOption : OptionRule := ⟨["-h", "--help"], .help⟩

/-- The options in front of a command. -/
def programOptions : List OptionRule := [helpOption, ⟨["--version"], .version⟩]

/-- The options that all commands have. -/
def commonOptions : List OptionRule := [
    helpOption,
    ⟨["--quiet"], .flag⟩,
    ⟨["--log-level"], .choice true (LogLevel.all.map LogLevel.name)⟩]

/-- The forms of all commands under their names. -/
def forms : List (Text × Form) := [
    ("registries", ⟨commonOptions, []⟩),
    ("versions", ⟨commonOptions, ["registry"]⟩),
    ("latest", ⟨commonOptions ++ [⟨["--order"], .text⟩], ["registry"]⟩),
    ("schema", ⟨commonOptions, ["registry", "version"]⟩),
    ("validate", ⟨commonOptions ++ [⟨["--format"], .choice false ["json", "csv"]⟩,
      ⟨["--strict"], .flag⟩, ⟨["--output"], .text⟩], ["registry", "version", "input"]⟩)]

/-- The command of a name whose places are taken as the form of the command has them. -/
def Command.ofTaken? (name : Text) (taken : Taken) : Option Command :=
  if name = "registries" then
    match taken.places with
    | [] => some .registries
    | _ => none
  else if name = "versions" then
    match taken.places with
    | [some registry] => some (.versions registry)
    | _ => none
  else if name = "latest" then
    match taken.places with
    | [some registry] => some (.latest registry (taken.text? "--order"))
    | _ => none
  else if name = "schema" then
    match taken.places with
    | [some registry, some version] => some (.schema registry version)
    | [some registry, none] => some (.withoutVersion registry)
    | _ => none
  else if name = "validate" then
    match taken.places with
    | [some registry, some version, some input] =>
      some (.validate {
        registry := registry
        version := version
        input := Path.ofText input
        format := (taken.text? "--format").bind RowFormat.ofName?
        strict := (taken.option? "--strict").isSome
        output := .ofOption (taken.option? "--output") })
    | [some registry, none, _] => some (.withoutVersion registry)
    | [some registry, some version, none] => some (.withoutInput registry version)
    | _ => none
  else none

/-- What a command with its arguments asks for, after `extras` for which there was no use. -/
def Request.ofCommand (extras : List Text) (name : Text) (arguments : List Text) : Request :=
  match forms.lookup name with
  | none => .misuse none (.invalidChoice "command" name (forms.map Prod.fst))
  | some form =>
    match form.read arguments with
    | .error .help => .help (some name)
    | .error .version => .version
    | .error (.fault fault) => .misuse (some name) fault
    | .ok taken =>
      match extras ++ taken.extras, Command.ofTaken? name taken with
      | [], some command =>
        .invoke ⟨command, (taken.option? "--quiet").isSome,
          (taken.text? "--log-level").bind LogLevel.ofName?⟩
      | [], none => .nothing
      | extras, _ => .misuse none (.unrecognized extras)

/-- Looks for the command among arguments and their looks. A divider in front of other arguments
stands for the name of the command. -/
def Request.find (extras : List Text) : List Sign → List Text → Request
  | .text name :: _, _ :: arguments => .ofCommand extras name arguments
  | .divider :: _ :: _, _ :: arguments => .ofCommand extras "--" arguments
  | .divider :: signs, _ :: arguments => find (extras ++ [("--" : Text)]) signs arguments
  | .unknown text :: signs, _ :: arguments => find (extras ++ [text]) signs arguments
  | .option rule spelling attached :: signs, _ :: arguments =>
    match refusedText spelling attached with
    | some text => .misuse none (.ignoredText rule.shown text)
    | none =>
      match rule.kind with
      | .help => .help none
      | .version => .version
      | _ => find extras signs arguments
  | _, _ => if extras = [] then .nothing else .misuse none (.unrecognized extras)

/-- What arguments ask for. -/
def Request.ofArguments (arguments : List Text) : Request :=
  match Sign.ofTexts programOptions arguments with
  | .error fault => .misuse none fault
  | .ok signs => .find [] signs arguments

end RecordRegistry.CommandLine
