import RecordRegistry.Entries
import RecordRegistry.Log
import RecordRegistry.Problem
import RecordRegistry.Text.UpperCase
import RecordRegistry.Validation

/-!
# Settings from the environment

Four variables of the environment change how the program works. A variable that is not set or empty
leaves the default; the problems of all others are told at once.
-/

namespace RecordRegistry

/-- The variables of an environment. -/
abbrev Environment := Entries Text

/-- Where the program runs. -/
inductive Stage where
  | development
  | test
  | production
deriving DecidableEq, Repr

namespace Stage

/-- The name of a stage. -/
def name : Stage → Text
  | development => "development"
  | test => "test"
  | production => "production"

/-- The stage of a name. -/
def ofName? (name : Text) : Option Stage :=
  [development, test, production].find? fun stage => stage.name = name

end Stage

/-- The settings. -/
structure Settings where
  stage : Stage
  latestVersion : Option Text
  logLevel : LogLevel
  unknownFields : UnknownFields
deriving DecidableEq, Repr

namespace Settings

/-- The variable of a setting; an empty one counts as not set. -/
def value? (environment : Environment) (name : Text) : Option Text :=
  (environment.lookup name).filter (· ≠ "")

/-- A setting that is not set keeps its default, and the text of one that is set is checked. -/
def setting {α : Type} (field : Text) (default : α) (check : Text → Checked α)
    (text : Option Text) : Checked α :=
  match text with
  | none => .ok default
  | some text => (check text).within (.key field)

/-- A stage by its name. -/
def stageOf (text : Text) : Checked Stage :=
  match Stage.ofName? text with
  | some stage => .ok stage
  | none => .fail (.notAmong ["development", "test", "production"])

/-- A level by its name in letters of either case. -/
def levelOf (text : Text) : Checked LogLevel :=
  match LogLevel.ofName? (Text.upper text) with
  | some level => .ok level
  | none => .fail (.unknownLevel (LogLevel.all.map LogLevel.name) text)

/-- A mode by its name. -/
def unknownFieldsOf (text : Text) : Checked UnknownFields :=
  match UnknownFields.ofName? text with
  | some mode => .ok mode
  | none => .fail (.notAmong ["ignore", "reject"])

/-- The settings that an environment asks for. -/
def check (environment : Environment) : Checked Settings :=
  let value := value? environment
  ((setting "env" .development stageOf (value "BENCHREG_ENV")).both
    ((setting "log_level" .warning levelOf (value "BENCHREG_LOG_LEVEL")).both
      (setting "unknown_fields" .ignore unknownFieldsOf
        (value "BENCHREG_UNKNOWN_FIELDS")))).map fun parts =>
    ⟨parts.1, value "BENCHREG_LATEST_VERSION", parts.2.1, parts.2.2⟩

/-- The settings of an environment. -/
def ofEnvironment (environment : Environment) : Except Refusal Settings :=
  (check environment).mapError (⟨"Settings", ·⟩)

/-- The name of the level at which the log is printed: the one that is asked for or else that of the
settings, in upper case. -/
def logLevelName (settings : Settings) (asked : Option Text) : Text :=
  Text.upper (match asked.getD "" with
    | "" => settings.logLevel.name
    | asked => asked)

end Settings

/-- The first line of the message about a bad environment. -/
def Refusal.headline (refusal : Refusal) : Text :=
  "Invalid benchreg environment configuration: " ++ toString refusal.problems.length ++
    " validation error" ++ (if refusal.problems.length = 1 then "" else "s") ++ " for " ++
    refusal.model

end RecordRegistry
