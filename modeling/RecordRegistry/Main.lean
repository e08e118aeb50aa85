import RecordRegistry.CommandLine.Run

/-!
# The program

Runs the command line on the file system of the machine and in the environment of the process.
-/

namespace RecordRegistry.Main

/-- The number of a fault, which some calls give with its sign turned. -/
def faultNumber (code : UInt32) : Nat :=
  if code < 0x80000000 then code.toNat else (0 - code).toNat

/-- The number of a failed system call and its text. -/
def numberAndText : IO.Error → Nat × String
  | .alreadyExists _ number text | .inappropriateType _ number text
  | .noSuchThing _ number text | .permissionDenied _ number text
  | .resourceExhausted _ number text | .invalidArgument _ number text => (faultNumber number, text)
  | .interrupted _ number text | .noFileOrDirectory _ number text => (faultNumber number, text)
  | .otherError number text | .resourceBusy number text | .resourceVanished number text
  | .unsupportedOperation number text | .hardwareFault number text
  | .unsatisfiedConstraints number text | .illegalOperation number text
  | .protocolError number text | .timeExpired number text => (faultNumber number, text)
  | .userError text => (0, text)
  | .unexpectedEof => (0, "Unexpected end of file")

/-- The fault of a failed system call. -/
def faultOf (e : IO.Error) : FileFault :=
  match numberAndText e with
  | (2, _) => .notFound
  | (17, _) => .alreadyExists
  | (20, _) => .notADirectory
  | (21, _) => .isADirectory
  | (36, _) => .nameTooLong
  | (number, text) => .other number text

/-- Works on the text of a path, unless a surrogate or a null character keeps the path from the
system. -/
def onPath {α : Type} (path : Path) (action : String → IO α) : IO (Except FileError α) := do
  match path.toText.utf8 with
  | .error e => return .error ⟨.surrogate e, path⟩
  | .ok _ =>
    if path.toText.toList.contains '\x00' then return .error ⟨.nullCharacter, path⟩
    try return .ok (← action path.toText.shown)
    catch e => return .error ⟨faultOf e, path⟩

/-- The file system of the machine. A path that cannot be read because it is a directory is one. -/
def disk : Disk IO where
  read path := onPath path fun name => return (← IO.FS.readBinFile name).toList
  makeDirectory path := onPath path fun name => IO.FS.createDir name
  isDirectory path := do
    match ← onPath path fun name => IO.FS.readBinFile name with
    | .error e => return e.fault = .isADirectory
    | .ok _ => return false
  write path bytes := onPath path fun name => IO.FS.writeBinFile name ⟨bytes.toArray⟩

/-- The variables of the process that the settings read. -/
def environment : IO Environment := do
  let names := ["BENCHREG_ENV", "BENCHREG_LATEST_VERSION", "BENCHREG_LOG_LEVEL",
    "BENCHREG_UNKNOWN_FIELDS"]
  names.filterMapM fun name => return (← IO.getEnv name).map fun text => (name, text)

/-- Runs the program, prints what it tells, and ends with its exit code. -/
def start (arguments : List String) : IO UInt32 := do
  let result ← CommandLine.run disk (← environment) (arguments.map Text.ofString)
  IO.print (CommandLine.RunResult.printed result.output)
  IO.eprint (CommandLine.RunResult.printed result.errors)
  match result.ending with
  | .exit code => return UInt32.ofNat code
  | .abort cause =>
    IO.eprintln cause.message.shown
    return 1

end RecordRegistry.Main

/-- The program. -/
def main (arguments : List String) : IO UInt32 := RecordRegistry.Main.start arguments
