import RecordRegistry.Report
import RecordRegistry.Versions

/-!
# Registries of schemas

A registry holds schemas under the name of a registry and the key of a version, the versions of each
registry by themselves. A schema is entered once and never changed, and after a registry has been
frozen nothing is entered any more. A version that is asked for is found by its exact key or not at
all.
-/

namespace RecordRegistry

open Json (Value)

/-- A schema under its two names. -/
structure Entry where
  registry : Text
  version : Text
  schema : Schema
deriving DecidableEq, Repr

/-- The schemas of every registry under their versions, and whether the registry is frozen. -/
structure Registry where
  registries : Entries (Entries Schema)
  frozen : Bool
deriving DecidableEq, Repr

/-- Why an operation on a registry fails. -/
inductive RegistryError where
  | frozen (registry version : Text)
  | emptyName
  | notASchema (type : Text)
  | duplicate (registry version : Text)
  | unknownVersion (registry version : Text) (known : List Text)
  | unknownRegistry (registry : Text) (version : Option Text) (known : List Text)
  | surrogate (error : Text.SurrogateError)
deriving DecidableEq, Repr

/-- Names in a message. -/
def listed (names : List Text) : Text :=
  if names = [] then "none" else Text.intercalate ", " names

/-- The wording of a failure. -/
def RegistryError.message : RegistryError → Text
  | frozen registry version =>
    "Cannot register '" ++ registry ++ "' version '" ++ version ++ "': registry is frozen"
  | emptyName => "registry_name and version_key must be non-empty strings"
  | notASchema type => "spec must be a RecordSpec, got " ++ type
  | duplicate registry version =>
    "Schema for registry '" ++ registry ++ "' version '" ++ version ++
      "' is already registered. Schema definitions must be declared exactly once."
  | unknownVersion registry version known =>
    "Unknown version '" ++ version ++ "' for registry '" ++ registry ++ "' (known versions: " ++
      listed known ++ ")"
  | unknownRegistry registry _ known =>
    "Unknown registry '" ++ registry ++ "' (known registries: " ++ listed known ++ ")"
  | surrogate error => error.message

/-- What is offered for registration: a schema, or a value that is none. -/
inductive Candidate where
  | schema (schema : Schema)
  | other (value : Value)
deriving Repr

/-- What an operation makes of a registry: the registry after it, also where it fails, the lines
that it logs, and what it gives. -/
structure Change (α : Type) where
  registry : Registry
  log : List LogLine
  result : Except RegistryError α
deriving Repr

namespace Registry

/-- The registry without entries. -/
def empty : Registry := ⟨[], false⟩

/-- Closes a registry for new entries. -/
def freeze (registry : Registry) : Registry := { registry with frozen := true }

/-- The schemas of a registry under their versions; none for an unknown one. -/
def versions (registry : Registry) (name : Text) : Entries Schema :=
  (registry.registries.lookup name).getD []

/-- The schema under two names. -/
def find? (registry : Registry) (name version : Text) : Option Schema :=
  (registry.versions name).lookup version

/-- Whether there is a schema under two names. -/
def contains (registry : Registry) (name version : Text) : Bool :=
  (registry.versions name).has version

/-- The number of entries: as many as all registries have versions. -/
def size (registry : Registry) : Nat :=
  registry.registries.foldl (fun count named => count + named.2.length) 0

/-- The names of registries, in ascending order. -/
def names (registry : Registry) : List Text :=
  registry.registries.names.mergeSort fun a b => a ≤ b

/-- The versions of a registry in ascending order; none for an unknown one. -/
def versionsOf (registry : Registry) (name : Text) : List Text :=
  (registry.versions name).names.mergeSort fun a b => a ≤ b

/-- The entries by the names of registries, and by versions within a registry. -/
def sorted (registry : Registry) : List Entry :=
  (registry.registries.mergeSort fun a b => a.1 ≤ b.1).flatMap fun named =>
    (named.2.mergeSort fun a b => a.1 ≤ b.1).map fun entry => ⟨named.1, entry.1, entry.2⟩

/-- Puts a schema under two names, making the registry if there is none of the name. -/
def insert (registry : Registry) (name version : Text) (schema : Schema) : Registry :=
  { registry with
    registries := registry.registries.set name ((registry.versions name).set version schema) }

/-- An operation that fails and does nothing else. -/
def refuse {α : Type} (registry : Registry) (error : RegistryError) : Change α :=
  ⟨registry, [], .error error⟩

/-- The log line of a new entry. -/
def logLine (entry : Entry) (fingerprint : Text) : LogLine :=
  ⟨.debug, "benchreg.kernel.registry",
    "Registered " ++ entry.registry ++ "@" ++ entry.version ++ " (" ++
      toString entry.schema.fields.length ++ " fields, " ++ fingerprint ++ ")"⟩

/-- Tells of an entry that has just been made. The line holds the fingerprint, and for want of one
the operation fails without undoing the entry. -/
def announce (registry : Registry) (entry : Entry) : Change Schema :=
  match entry.schema.fingerprint with
  | .error e => ⟨registry, [], .error (.surrogate e)⟩
  | .ok fingerprint => ⟨registry, [logLine entry fingerprint], .ok entry.schema⟩

/-- Enters a schema under two names, which become its identity. -/
def register (registry : Registry) (name version : Text) (candidate : Candidate) :
    Change Schema :=
  if registry.frozen then registry.refuse (.frozen name version)
  else if name = "" ∨ version = "" then registry.refuse .emptyName
  else
    match candidate with
    | .other value => registry.refuse (.notASchema value.typeName)
    | .schema schema =>
      if registry.contains name version then registry.refuse (.duplicate name version)
      else
        let stored := schema.identified name version
        (registry.insert name version stored).announce ⟨name, version, stored⟩

/-- Enters one schema after the other, up to the first that fails. What was entered up to then
stays. -/
def registerAll (registry : Registry) : List Entry → Change Unit
  | [] => ⟨registry, [], .ok ()⟩
  | entry :: rest =>
    let first := registry.register entry.registry entry.version (.schema entry.schema)
    match first.result with
    | .error e => ⟨first.registry, first.log, .error e⟩
    | .ok _ =>
      let others := first.registry.registerAll rest
      ⟨others.registry, first.log ++ others.log, others.result⟩

/-- The versions of a registry, which must be known. `asked` is the version on whose behalf they
are wanted. -/
def versionsFor (registry : Registry) (name : Text) (asked : Option Text) :
    Except RegistryError (List Text) :=
  if name ∈ registry.names then .ok (registry.versionsOf name)
  else .error (.unknownRegistry name asked registry.names)

/-- The versions of a registry. -/
def listVersions (registry : Registry) (name : Text) : Except RegistryError (List Text) :=
  registry.versionsFor name none

/-- The schema of a version of a registry. -/
def lookup (registry : Registry) (name version : Text) : Except RegistryError Schema :=
  match registry.versionsFor name (some version) with
  | .error e => .error e
  | .ok versions =>
    match registry.find? name version with
    | some schema => .ok schema
    | none => .error (.unknownVersion name version versions)

/-- The newest of ordered versions that a registry has. -/
def latest (registry : Registry) (name : Text) (ordered : List Text) :
    Except RegistryError (Option Text) :=
  (registry.listVersions name).map fun versions => latestVersion ordered (some versions)

/-- An order of versions together with those that a registry has. -/
def resolver (registry : Registry) (name : Text) (ordered : List Text) :
    Except RegistryError VersionResolver :=
  (registry.listVersions name).map fun versions => ⟨ordered, some versions⟩

end Registry

/-- Why validation by the names of a schema fails. -/
inductive NamedError where
  | registry (error : RegistryError)
  | input (error : InputError)
deriving DecidableEq, Repr

/-- The wording of a failure. -/
def NamedError.message : NamedError → Text
  | registry error => error.message
  | input error => error.message

namespace Registry

/-- Validates a value against a version of a registry. -/
def validate (registry : Registry) (name version mode : Text) (value : Value) :
    Except NamedError Outcome :=
  match registry.lookup name version with
  | .error e => .error (.registry e)
  | .ok schema => (schema.validateValue mode value).mapError .input

/-- Validates rows against a version of a registry. -/
def validateRows (registry : Registry) (name version mode : Text) (rows : List Value) :
    List LogLine × Except NamedError Report :=
  match registry.lookup name version with
  | .error e => ([], .error (.registry e))
  | .ok schema =>
    let run := schema.validateRows mode rows
    (run.1, run.2.mapError .input)

end Registry

end RecordRegistry
