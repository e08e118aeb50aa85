import RecordRegistry.Disk.Path

/-!
# A disk

What the library needs from a file system: four operations on paths, in any monad. The module adds
what is built from them.
-/

namespace RecordRegistry

/-- Why an operation on a path fails. What the library need not tell apart has a number and a
text. -/
inductive FileFault where
  | notFound
  | alreadyExists
  | notADirectory
  | isADirectory
  | nameTooLong
  | nullCharacter
  | surrogate (error : Text.SurrogateError)
  | other (number : Nat) (text : Text)
deriving DecidableEq, Repr

/-- A failed operation and the path it was asked for. -/
structure FileError where
  fault : FileFault
  path : Path
deriving DecidableEq, Repr

namespace FileError

/-- A numbered fault with its path; what has no bytes, or a null character in its path, never
reaches the disk. -/
def message (e : FileError) : Text :=
  let numbered (number : Nat) (text : Text) :=
    "[Errno " ++ toString number ++ "] " ++ text ++ ": " ++ Text.quoted e.path.toText
  match e.fault with
  | .notFound => numbered 2 "No such file or directory"
  | .alreadyExists => numbered 17 "File exists"
  | .notADirectory => numbered 20 "Not a directory"
  | .isADirectory => numbered 21 "Is a directory"
  | .nameTooLong => numbered 36 "File name too long"
  | .nullCharacter => "embedded null byte"
  | .surrogate error => error.message
  | .other number text => numbered number text

end FileError

/-- A file system: read a whole file, make one directory, ask whether a path is a directory, and
write a whole file, which replaces what it held. -/
structure Disk (m : Type → Type) where
  read : Path → m (Except FileError (List UInt8))
  makeDirectory : Path → m (Except FileError Unit)
  isDirectory : Path → m Bool
  write : Path → List UInt8 → m (Except FileError Unit)

namespace Disk

variable {m : Type → Type} [Monad m]

/-- Writes a text into a file, which is emptied before. Nothing more happens to the file when the
text has no bytes. -/
def writeText (disk : Disk m) (path : Path) (text : Text) : m (Except FileError Unit) :=
  match text.utf8 with
  | .ok bytes => disk.write path bytes
  | .error e => do
    match ← disk.write path [] with
    | .error fault => return .error fault
    | .ok () => return .error ⟨.surrogate e, path⟩

/-- Makes a directory unless there is one already. -/
def ensureDirectory (disk : Disk m) (path : Path) : m (Except FileError Unit) := do
  match ← disk.makeDirectory path with
  | .ok () => return .ok ()
  | .error e => return if ← disk.isDirectory path then .ok () else .error e

/-- Makes the directory with the given start and names, last one first, and those above it that
are missing. -/
def ensureAbove (disk : Disk m) (start : Path.Start) : List Text → m (Except FileError Unit)
  | [] => disk.ensureDirectory ⟨start, []⟩
  | name :: above => do
    let path : Path := ⟨start, (name :: above).reverse⟩
    match ← disk.ensureDirectory path with
    | .ok () => return .ok ()
    | .error e =>
      if e.fault = .notFound then
        match ← disk.ensureAbove start above with
        | .ok () => disk.ensureDirectory path
        | .error e => return .error e
      else return .error e

/-- Makes a directory and those above it, unless they are there. -/
def ensureDirectories (disk : Disk m) (path : Path) : m (Except FileError Unit) :=
  disk.ensureAbove path.start path.names.reverse

end Disk

end RecordRegistry
