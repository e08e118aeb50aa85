import RecordRegistry.Csv
import RecordRegistry.Disk
import RecordRegistry.Json.Reader
import RecordRegistry.Text.Utf8

/-!
# Rows of a report

Rows come as JSON or as comma-separated values, from a text or from a file. Values stay what the
format says they are: in comma-separated values all of them are texts.
-/

namespace RecordRegistry

/-- The formats of a text with rows. -/
inductive RowFormat where
  | json
  | csv
deriving DecidableEq, Repr

namespace RowFormat

/-- The name of a format. -/
def name : RowFormat → Text
  | json => "json"
  | csv => "csv"

/-- The format of a name. -/
def ofName? (name : Text) : Option RowFormat :=
  if name = "json" then some json else if name = "csv" then some csv else none

/-- The format that a path suggests: its suffix, in letters of either case, can ask for
comma-separated values, and all else is JSON. -/
def ofPath (path : Path) : RowFormat :=
  if path.suffix.map CodePoint.toLower = [.char '.', .char 'c', .char 's', .char 'v'] then
    csv
  else
    json

end RowFormat

/-- Why a text holds no rows. -/
inductive RowsError where
  | json (error : Json.ReadError)
  | notRows (type : Text)
  | notARow (index : Nat) (type : Text)
  | csv (error : Csv.CellTooLong)
deriving DecidableEq, Repr

namespace RowsError

/-- The wording of a refusal. -/
def message : RowsError → Text
  | json error => error.message
  | notRows type => "Expected a JSON object or array, got " ++ type
  | notARow index type =>
    "Row " ++ toString index ++ " is not a JSON object (got " ++ type ++ ")"
  | csv error => error.message

end RowsError

namespace Rows

/-- Takes every item as a row, the first of them at `index`. -/
def ofItems (index : Nat) : List Json.Value → Except RowsError (List Json.Record)
  | [] => .ok []
  | .object members :: items => (ofItems (index + 1) items).map (members :: ·)
  | item :: _ => .error (.notARow index item.typeName)

/-- The rows in a JSON value: the items of an array, those of the array under the name `rows` of an
object, or the object itself as the only row. -/
def ofValue : Json.Value → Except RowsError (List Json.Record)
  | .array items => ofItems 0 items
  | .object members =>
    match members.lookup ("rows" : Text) with
    | some (.array items) => ofItems 0 items
    | _ => .ok [members]
  | value => .error (.notRows value.typeName)

/-- The rows of a JSON text. -/
def ofJson (text : List CodePoint) : Except RowsError (List Json.Record) :=
  match Json.read text with
  | .error e => .error (.json e)
  | .ok value => ofValue value

/-- The rows of a text of comma-separated values. -/
def ofCsv (text : List CodePoint) : Except RowsError (List Json.Record) :=
  match Csv.read text with
  | .error e => .error (.csv e)
  | .ok rows => .ok (rows.map fun row => row.map fun entry => (entry.1, .string entry.2))

/-- The rows of a text in a format. -/
def ofText : RowFormat → List CodePoint → Except RowsError (List Json.Record)
  | .json => ofJson
  | .csv => ofCsv

end Rows

/-- Why a file gives no rows. -/
inductive LoadError where
  | format (name : Text)
  | file (error : FileError)
  | encoding (error : Text.Utf8Error)
  | rows (error : RowsError)
deriving DecidableEq, Repr

namespace LoadError

/-- The wording of a failure. -/
def message : LoadError → Text
  | format name =>
    "Unsupported format '" ++ name ++ "' (expected one of ('json', 'csv'))"
  | file error => error.message
  | encoding error => error.message
  | rows error => error.message

end LoadError

namespace Rows

/-- The format in which a file is read: the one that is asked for, or without a name for it the
one that the path suggests. -/
def chooseFormat (path : Path) (asked : Option Text) : Except LoadError RowFormat :=
  let name := asked.getD ""
  if name = "" then .ok (RowFormat.ofPath path)
  else
    match RowFormat.ofName? name with
    | some format => .ok format
    | none => .error (.format name)

/-- The rows in the bytes of a file. -/
def ofBytes (format : RowFormat) (bytes : List UInt8) : Except LoadError (List Json.Record) :=
  match Text.Utf8.decodeFile bytes with
  | .error e => .error (.encoding e)
  | .ok chars => (ofText format (Text.unifyLineEnds (chars.map .char))).mapError .rows

/-- Reads the rows of a file. The format is settled before the file is opened. -/
def load {m : Type → Type} [Monad m] (disk : Disk m) (path : Path) (asked : Option Text) :
    m (Except LoadError (List Json.Record)) :=
  match chooseFormat path asked with
  | .error e => return .error e
  | .ok format => do
    match ← disk.read path with
    | .error e => return .error (.file e)
    | .ok bytes => return ofBytes format bytes

end Rows

end RecordRegistry
