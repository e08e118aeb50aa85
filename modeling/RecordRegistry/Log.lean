import RecordRegistry.Text

/-!
# Log lines

What happens is told in lines with a level and a source; a reader asks for the lines at or above a
level.
-/

namespace RecordRegistry

/-- The levels of log lines. -/
inductive LogLevel where
  | critical
  | error
  | warning
  | info
  | debug
deriving DecidableEq, Repr

namespace LogLevel

/-- All levels, the gravest first. -/
def all : List LogLevel := [critical, error, warning, info, debug]

/-- The name of a level. -/
def name : LogLevel → Text
  | critical => "CRITICAL"
  | error => "ERROR"
  | warning => "WARNING"
  | info => "INFO"
  | debug => "DEBUG"

/-- The level of a name. -/
def ofName? (name : Text) : Option LogLevel := all.find? fun level => level.name = name

/-- How grave a level is. -/
def weight : LogLevel → Nat
  | critical => 4
  | error => 3
  | warning => 2
  | info => 1
  | debug => 0

end LogLevel

/-- One line of a log. -/
structure LogLine where
  level : LogLevel
  source : Text
  message : Text
deriving DecidableEq, Repr

namespace LogLine

/-- A line as it is printed. -/
def text (line : LogLine) : Text :=
  line.level.name ++ " " ++ line.source ++ ": " ++ line.message

/-- The layout of a printed line, in the words of log settings. -/
def format : Text := "%(levelname)s %(name)s: %(message)s"

/-- Whether a line is as grave as the level that is asked for. -/
def isShownAt (level : LogLevel) (line : LogLine) : Bool := level.weight ≤ line.level.weight

end LogLine

end RecordRegistry
