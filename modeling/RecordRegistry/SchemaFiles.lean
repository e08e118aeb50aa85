import RecordRegistry.Disk
import RecordRegistry.Registry.Builtin

/-!
# Schema files

Every built-in schema can be written to a file of its own in the JSON Schema language.
-/

namespace RecordRegistry.SchemaFiles

variable {m : Type → Type} [Monad m]

/-- The name of the file of an entry. -/
def fileName (entry : Entry) : Text :=
  entry.registry ++ "@" ++ entry.version ++ ".schema.json"

/-- The text of the file of an entry. -/
def text (entry : Entry) : Text := (entry.schema.jsonSchema true).pretty ++ "\n"

/-- Writes the files of entries into a directory, up to the first that cannot be written, and tells
their paths. -/
def writeEntries (disk : Disk m) (directory : Path) : List Entry → m (Except FileError (List Path))
  | [] => return .ok []
  | entry :: rest => do
    let path := directory.child (fileName entry)
    match ← disk.writeText path (text entry) with
    | .error e => return .error e
    | .ok () => return (← writeEntries disk directory rest).map (path :: ·)

/-- Writes the files of all built-in schemas into a directory, which is made if there is none, and
tells their paths. -/
def write (disk : Disk m) (directory : Path) : m (Except FileError (List Path)) := do
  match ← disk.ensureDirectories directory with
  | .error e => return .error e
  | .ok () => writeEntries disk directory Registry.builtin.sorted

/-- The line that tells of a written file. -/
def line (path : Path) : Text := "Generated: " ++ path.toText

end RecordRegistry.SchemaFiles
