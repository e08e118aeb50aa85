import RecordRegistry.Registry

/-!
# The built-in schemas

Benchmark tables of applications have one schema for each release, even where two releases agree;
the other reports have a single version.
-/

namespace RecordRegistry.Builtin

/-- The version of a registry that has only one. -/
def onlyVersion : Text := "current"

/-- A text that must be there. -/
def text (name : Text) (h : name ≠ "" := by decide) : Field :=
  ⟨name, h, .plain (.primitive .string)⟩

/-- A number that must be there. -/
def number (name : Text) (h : name ≠ "" := by decide) : Field :=
  ⟨name, h, .plain (.primitive .number)⟩

/-- A text that may be left out. -/
def optionalText (name : Text) (h : name ≠ "" := by decide) : Field :=
  ⟨name, h, .optional (.primitive .string)⟩

/-- A schema that has not been registered. -/
def schema (description : Text) (fields : List Field)
    (nodup : (fields.map Field.name).Nodup := by decide) : Schema :=
  ⟨fields, nodup, Identity.unknown, some description⟩

/-- Benchmarks of applications on the main branch. -/
def applicationsMain : Schema :=
  schema "Applications benchmarks on the main branch"
    [text "name", text "size", text "speed", text "total_duration", text "total_cycles",
      text "user_cycles", text "proof_bytes"]

/-- Benchmarks of applications for release 0.21. -/
def applicationsRelease021 : Schema :=
  schema "Applications benchmarks for release 0.21"
    [text "job_name", text "job_size", text "exec_duration", text "proof_duration",
      text "total_duration", text "verify_duration", text "insn_cycles", text "prove_cycles",
      text "proof_bytes"]

/-- Benchmarks of applications for release 1.0. -/
def applicationsRelease10 : Schema :=
  schema "Applications benchmarks for release 1.0"
    [text "name", text "size", text "speed", text "total_duration", text "total_cycles",
      text "user_cycles", text "proof_bytes"]

/-- Measurements of provers. -/
def datasheet : Schema :=
  schema "Prover datasheet measurements"
    [number "cycles", number "duration", text "hashfn", text "name", number "ram",
      number "seal", number "throughput", number "total_cycles", number "user_cycles"]

/-- What can become of a crate. -/
def statuses : Choices :=
  ⟨["Success", "BuildFail", "RunFail", "Skipped"], by decide, by decide⟩

/-- Whether crates build and run. -/
def crates : Schema :=
  schema "Build/run status of crates.io crates inside the guest"
    [text "name", text "version", ⟨"status", by decide, .plain (.enum statuses)⟩,
      text "custom_profile", optionalText "build_errors"]

/-- All built-in schemas under their names, in the order of their registration. -/
def entries : List Entry := [
    ⟨"applications-benchmarks", "main", applicationsMain⟩,
    ⟨"applications-benchmarks", "release-0.21", applicationsRelease021⟩,
    ⟨"applications-benchmarks", "release-1.0", applicationsRelease10⟩,
    ⟨"datasheet", onlyVersion, datasheet⟩,
    ⟨"crates-io-validation", onlyVersion, crates⟩]

end Builtin

namespace Registry

/-- Enters the built-in schemas. -/
def addBuiltins (registry : Registry) : Change Unit :=
  registry.registerAll Builtin.entries

/-- The frozen registry of the built-in schemas alone. -/
def builtin : Registry := empty.addBuiltins.registry.freeze

end Registry

end RecordRegistry
