import RecordRegistry.Text

/-!
# How the program is used

The lines that tell how the program and its commands are used, and the help on them, as they are
laid out for eighty columns.
-/

namespace RecordRegistry.CommandLine

/-- The name of the program. -/
def programName : Text := "benchreg"

/-- The program in front of a command, or alone. -/
def programOf : Option Text → Text
  | none => programName
  | some command => programName ++ " " ++ command

/-- How something is used, and the help on it behind the usage. -/
structure Help where
  usage : List Text
  details : List Text

/-- The usage, an empty line and the rest. -/
def Help.lines (help : Help) : List Text := help.usage ++ ("" : Text) :: help.details

/-- The help on the program. -/
def programHelp : Help where
  usage := [
    "usage: benchreg [-h] [--version]",
    "                \x7bregistries,versions,latest,schema,validate\x7d ..."]
  details := [
    "benchreg: versioned schemas for benchmark-report records",
    "",
    "positional arguments:",
    "  \x7bregistries,versions,latest,schema,validate\x7d",
    "                        Available commands",
    "    registries          List registry names",
    "    versions            List the versions of a registry",
    "    latest              Print the newest available version from an ordered",
    "                        list",
    "    schema              Print the JSON Schema of a registry version",
    "    validate            Validate a JSON or CSV file of rows against a registry",
    "                        version",
    "",
    "options:",
    "  -h, --help            show this help message and exit",
    "  --version             show program's version number and exit"]

/-- The help on the options that all commands have. -/
def commonOptionsHelp : List Text := [
    "  -h, --help            show this help message and exit",
    "  --quiet               Suppress all non-error output.",
    "  --log-level \x7bCRITICAL,ERROR,WARNING,INFO,DEBUG\x7d",
    "                        Logging level (defaults to BENCHREG_LOG_LEVEL or",
    "                        WARNING)"]

/-- The help on the places of a command, if it has some, and on its options. -/
def commandDetails (places options : List Text) : List Text :=
  let optionLines : List Text := "options:" :: (commonOptionsHelp ++ options)
  if places = [] then optionLines
  else "positional arguments:" :: (places ++ ("" : Text) :: optionLines)

/-- The help on all commands under their names. -/
def commandHelp : List (Text × Help) := [
    ("registries", {
      usage := [
        "usage: benchreg registries [-h] [--quiet]",
        "                           [--log-level \x7bCRITICAL,ERROR,WARNING,INFO,DEBUG\x7d]"]
      details := commandDetails [] [] }),
    ("versions", {
      usage := [
        "usage: benchreg versions [-h] [--quiet]",
        "                         [--log-level \x7bCRITICAL,ERROR,WARNING,INFO,DEBUG\x7d]",
        "                         registry"]
      details := commandDetails [
        "  registry              Registry name, e.g. applications-benchmarks"] [] }),
    ("latest", {
      usage := [
        "usage: benchreg latest [-h] [--quiet]",
        "                       [--log-level \x7bCRITICAL,ERROR,WARNING,INFO,DEBUG\x7d]",
        "                       [--order ORDER]",
        "                       registry"]
      details := commandDetails [
        "  registry              Registry name"] [
        "  --order ORDER         Comma-separated versions, newest first (defaults to",
        "                        BENCHREG_LATEST_VERSION)"] }),
    ("schema", {
      usage := [
        "usage: benchreg schema [-h] [--quiet]",
        "                       [--log-level \x7bCRITICAL,ERROR,WARNING,INFO,DEBUG\x7d]",
        "                       registry version"]
      details := commandDetails [
        "  registry              Registry name",
        "  version               Version key"] [] }),
    ("validate", {
      usage := [
        "usage: benchreg validate [-h] [--quiet]",
        "                         [--log-level \x7bCRITICAL,ERROR,WARNING,INFO,DEBUG\x7d]",
        "                         [--format \x7bjson,csv\x7d] [--strict] [--output OUTPUT]",
        "                         registry version input"]
      details := commandDetails [
        "  registry              Registry name",
        "  version               Version key",
        "  input                 Path to rows file"] [
        "  --format \x7bjson,csv\x7d   Input format (defaults to the file suffix)",
        "  --strict              Report undeclared fields as UNKNOWN_FIELD (defaults to",
        "                        BENCHREG_UNKNOWN_FIELDS)",
        "  --output OUTPUT       Write the full table report as JSON to this path"] })]

/-- The help on a command, or on the program. -/
def helpOn : Option Text → Help
  | none => programHelp
  | some command => (commandHelp.lookup command).getD programHelp

end RecordRegistry.CommandLine
