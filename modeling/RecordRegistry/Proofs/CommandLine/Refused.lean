import RecordRegistry.Proofs.CommandLine.ExitCode

/-!
# Refused validations

A validation is refused before it opens a file if the environment has no settings or if the command
names no built-in schema. How it ends is then told by the environment, the names and the level of
the log alone, so that two such runs cannot be told apart, whatever disks they are on. Like one
whose rows cannot be loaded it prints a message only and leaves the disk as it was. A command that
names a built-in registry and leaves the place of the version without a text is refused as early,
but with neither a message nor a code.
-/

namespace RecordRegistry

/-- Reading a file leaves a disk as it is. -/
def Disk.ReadsOnly {σ : Type} (disk : Disk (StateM σ)) : Prop :=
  ∀ path s, (disk.read path s).2 = s

theorem Tree.readsOnly_disk : Tree.disk.ReadsOnly := fun _ _ => rfl

namespace CommandLine

/-- The names that a validation gives. Its place for the version may be without a text. -/
structure Target where
  registry : Text
  version : Option Text

namespace Target

variable {target : Target} {registry version : Text}

/-- The names are not those of a built-in schema. -/
def Unlisted (target : Target) : Prop :=
  ∀ entry ∈ Builtin.entries, entry.registry = target.registry → some entry.version ≠ target.version

/-- The registry is a built-in one, and the version has no text. -/
def Versionless (target : Target) : Prop :=
  target.version = none ∧ ∃ entry ∈ Builtin.entries, entry.registry = target.registry

/-- How a validation ends for its names alone, if it does. -/
def refusal? (target : Target) : Option RunResult :=
  match target.version with
  | none => some (runWithoutVersion target.registry)
  | some version =>
    match Registry.builtin.lookup target.registry version with
    | .error e => some (.failed 2 e.message)
    | .ok _ => none

theorem refusal?_eq_none_iff :
    refusal? ⟨registry, some version⟩ = none ↔
      ∃ schema, Registry.builtin.lookup registry version = .ok schema := by
  cases hlookup : Registry.builtin.lookup registry version <;> simp [refusal?, hlookup]

theorem refusal?_eq_some_iff {result : RunResult} :
    refusal? ⟨registry, some version⟩ = some result ↔
      ∃ e, Registry.builtin.lookup registry version = .error e ∧
        result = .failed 2 e.message := by
  cases hlookup : Registry.builtin.lookup registry version <;>
    simp [refusal?, hlookup, eq_comm]

/-- A validation is refused for its names exactly when no built-in schema has them. -/
theorem isSome_refusal?_iff : target.refusal?.isSome = true ↔ target.Unlisted := by
  obtain ⟨registry, _ | version⟩ := target
  · exact iff_of_true rfl fun entry _ _ => Option.some_ne_none _
  · rw [Option.isSome_iff_ne_none, Ne, refusal?_eq_none_iff, Unlisted]
    simp only [Registry.lookup_builtin_eq_ok_iff]
    constructor
    · rintro hnone entry hentry rfl hversion
      exact hnone ⟨_, entry, hentry, rfl, Option.some.inj hversion, rfl⟩
    · rintro hunlisted ⟨schema, entry, hentry, hregistry, rfl, -⟩
      exact hunlisted entry hentry hregistry rfl

theorem refusal?_of_versionless (h : target.Versionless) :
    target.refusal? = some ⟨.abort .noVersion, [], []⟩ := by
  obtain ⟨registry, version⟩ := target
  obtain ⟨rfl, hregistry⟩ := h
  rw [refusal?, runWithoutVersion,
    Registry.listVersions_eq_ok_iff.mpr ⟨Registry.mem_names_builtin.mpr hregistry, rfl⟩]

end Target

/-- A result with code 2 and a message behind the lines of the log, but without any output. -/
def RunResult.OnlyMessage (result : RunResult) : Prop :=
  ∃ lines message, result = ⟨.exit 2, [], lines ++ [("Error: " : Text) ++ message]⟩

theorem RunResult.onlyMessage_failed (message : Text) : (failed 2 message).OnlyMessage :=
  ⟨[], message, rfl⟩

theorem RunResult.OnlyMessage.after {result : RunResult} (h : result.OnlyMessage)
    (lines : List Text) : (result.after [] lines).OnlyMessage := by
  obtain ⟨shown, message, rfl⟩ := h
  exact ⟨lines ++ shown, message, by simp [RunResult.after]⟩

/-- Names that are refused get a message, unless they lack the text of a version only. -/
theorem Target.onlyMessage_of_refusal? {target : Target} {result : RunResult}
    (h : target.refusal? = some result) (hversion : ¬ target.Versionless) :
    result.OnlyMessage := by
  obtain ⟨registry, _ | version⟩ := target
  · obtain rfl := Option.some.inj h
    rw [runWithoutVersion]
    cases hversions : Registry.builtin.listVersions registry with
    | error e => exact RunResult.onlyMessage_failed _
    | ok versions =>
        have hname := (Registry.listVersions_eq_ok_iff.mp hversions).1
        exact absurd ⟨rfl, Registry.mem_names_builtin.mp hname⟩ hversion
  · obtain ⟨e, -, rfl⟩ := Target.refusal?_eq_some_iff.mp h
    exact RunResult.onlyMessage_failed _

/-- What a command names, if it is a validation or may be what is left of one. -/
def Command.target? : Command → Option Target
  | .validate options => some ⟨options.registry, some options.version⟩
  | .withoutInput registry version => some ⟨registry, some version⟩
  | .withoutVersion registry => some ⟨registry, none⟩
  | .registries | .versions _ | .latest _ _ | .schema _ _ => none

/-- The log of the built-in registry is for those who ask for all of it. -/
theorem shownLines_builtinLog {level : LogLevel} (hlevel : level ≠ .debug) :
    shownLines level builtinLog = [] := by
  rw [shownLines, List.map_eq_nil_iff, List.filter_eq_nil_iff]
  intro line hline
  rw [LogLine.isShownAt, Registry.level_of_mem_log_registerAll hline]
  cases level with
  | debug => exact absurd rfl hlevel
  | info | warning | error | critical => exact Bool.false_ne_true

/-- How a validation ends before it opens a file, if it does. -/
def refusal? (environment : Environment) (asked : Option LogLevel) (target : Target) :
    Option RunResult :=
  match Settings.ofEnvironment environment with
  | .error refusal => some (.failed 2 refusal.headline)
  | .ok settings =>
    target.refusal?.map (·.after [] (shownLines (asked.getD settings.logLevel) builtinLog))

section Refusal

variable {environment : Environment} {asked : Option LogLevel} {target : Target}
variable {result : RunResult}

theorem isSome_refusal?_iff :
    (refusal? environment asked target).isSome = true ↔
      (∃ refusal, Settings.ofEnvironment environment = .error refusal) ∨ target.Unlisted := by
  rw [refusal?]
  cases Settings.ofEnvironment environment with
  | error refusal => simp
  | ok settings => simp [Target.isSome_refusal?_iff]

theorem onlyMessage_of_refusal? (h : refusal? environment asked target = some result)
    (hclean : (∃ refusal, Settings.ofEnvironment environment = .error refusal) ∨
      ¬ target.Versionless) : result.OnlyMessage := by
  rw [refusal?] at h
  cases hsettings : Settings.ofEnvironment environment with
  | error refusal =>
      rw [hsettings] at h
      obtain rfl := Option.some.inj h
      exact RunResult.onlyMessage_failed _
  | ok settings =>
      rw [hsettings] at h
      obtain ⟨refused, hrefused, rfl⟩ := Option.map_eq_some_iff.mp h
      have hversion : ¬ target.Versionless := by simpa [hsettings] using hclean
      exact (Target.onlyMessage_of_refusal? hrefused hversion).after _

variable {σ : Type} {disk : Disk (StateM σ)} {arguments : List Text} {invocation : Invocation}
variable {s : σ}

theorem runCommand_of_refusal? {settings : Settings} {level : LogLevel}
    (htarget : invocation.command.target? = some target) (h : target.refusal? = some result) :
    runCommand disk settings level invocation s = (result, s) := by
  rw [runCommand]
  cases hcommand : invocation.command with
  | validate options =>
      rw [hcommand] at htarget
      obtain rfl := Option.some.inj htarget
      obtain ⟨e, hlookup, rfl⟩ := Target.refusal?_eq_some_iff.mp h
      simp only [runValidate, hlookup]
      rfl
  | withoutInput registry version =>
      rw [hcommand] at htarget
      obtain rfl := Option.some.inj htarget
      obtain ⟨e, hlookup, rfl⟩ := Target.refusal?_eq_some_iff.mp h
      simp only [runWithoutInput, hlookup]
      rfl
  | withoutVersion registry =>
      rw [hcommand] at htarget
      obtain rfl := Option.some.inj htarget
      obtain rfl := Option.some.inj h
      rfl
  | registries | versions | latest | schema =>
      rw [hcommand] at htarget
      cases htarget

/-- A refused validation ends as it is refused, and has not touched the disk. -/
theorem run_of_refusal? (hrequest : Request.ofArguments arguments = .invoke invocation)
    (htarget : invocation.command.target? = some target)
    (h : refusal? environment invocation.logLevel target = some result) :
    run disk environment arguments s = (result, s) := by
  rw [refusal?] at h
  rw [run, hrequest]
  simp only [runInvocation]
  cases hsettings : Settings.ofEnvironment environment with
  | error refusal =>
      rw [hsettings] at h
      obtain rfl := Option.some.inj h
      rfl
  | ok settings =>
      rw [hsettings] at h
      obtain ⟨refused, hrefused, rfl⟩ := Option.map_eq_some_iff.mp h
      simp only [bind, StateT.bind, runCommand_of_refusal? htarget hrefused]
      rfl

variable {options : ValidateOptions}

theorem stateLoaded_of_readsOnly (hread : disk.ReadsOnly) (options : ValidateOptions) (s : σ) :
    stateLoaded disk options s = s := by
  rcases stateLoaded_cases disk options s with hstate | hstate
  · exact hstate
  · exact hstate.trans (hread options.input s)

theorem runValidate_of_loaded_eq_error_of_readsOnly {settings : Settings} {level : LogLevel}
    {quiet : Bool} {schema : Schema} {e : LoadError} (hread : disk.ReadsOnly)
    (hschema : Registry.builtin.lookup options.registry options.version = .ok schema)
    (hload : loaded disk options s = .error e) (hkind : e.kind?.isSome = true) :
    runValidate disk settings level quiet options s = (.failed 2 e.message, s) := by
  refine Prod.ext (runValidate_of_loaded_eq_error hkind hschema hload) ?_
  have hstate : Rows.load disk options.input (options.format.map RowFormat.name) s =
      (.error e, s) := Prod.ext hload (stateLoaded_of_readsOnly hread options s)
  rw [runValidate, hschema]
  simp only [bind, StateT.bind, hstate]
  cases e with
  | format | file | encoding => rfl
  | rows error => cases error <;> rfl

/-- A validation whose rows cannot be loaded writes nothing, whether or not it gets to them. -/
theorem run_of_loaded_eq_error {e : LoadError}
    (hrequest : Request.ofArguments arguments = .invoke invocation)
    (hcommand : invocation.command = .validate options) (hread : disk.ReadsOnly)
    (hload : loaded disk options s = .error e) (hkind : e.kind?.isSome = true) :
    ∃ result : RunResult, result.OnlyMessage ∧
      run disk environment arguments s = (result, s) := by
  have htarget : invocation.command.target? = some ⟨options.registry, some options.version⟩ := by
    rw [hcommand]
    rfl
  cases hrefusal : refusal? environment invocation.logLevel
      ⟨options.registry, some options.version⟩ with
  | some result =>
      have hversion : ¬ Target.Versionless ⟨options.registry, some options.version⟩ :=
        fun h => Option.some_ne_none _ h.1
      exact ⟨result, onlyMessage_of_refusal? hrefusal (.inr hversion),
        run_of_refusal? hrequest htarget hrefusal⟩
  | none =>
      rw [refusal?] at hrefusal
      cases hsettings : Settings.ofEnvironment environment with
      | error refusal =>
          rw [hsettings] at hrefusal
          cases hrefusal
      | ok settings =>
          rw [hsettings] at hrefusal
          obtain ⟨schema, hschema⟩ :=
            Target.refusal?_eq_none_iff.mp (Option.map_eq_none_iff.mp hrefusal)
          refine ⟨_, (RunResult.onlyMessage_failed e.message).after
            (shownLines (invocation.logLevel.getD settings.logLevel) builtinLog), ?_⟩
          rw [run, hrequest]
          simp only [runInvocation, hsettings, runCommand, hcommand, bind, StateT.bind,
            runValidate_of_loaded_eq_error_of_readsOnly hread hschema hload hkind]
          rfl

end Refusal

/-- The arguments of a validation name a registry, and a version unless its place has no text. -/
theorem exists_target_of_ofArguments {arguments : List Text} {invocation : Invocation}
    (h : Request.ofArguments ("validate" :: arguments) = .invoke invocation) :
    ∃ target, invocation.command.target? = some target := by
  rcases command_of_ofArguments h with
    ⟨options, hcommand⟩ | ⟨registry, hcommand⟩ | ⟨registry, version, hcommand⟩ <;>
    exact ⟨_, congrArg Command.target? hcommand⟩

/-- No settings can be made from the environment. -/
def NoSettings (environment : Environment) : Prop :=
  ∃ refusal, Settings.ofEnvironment environment = .error refusal

/-- The rows of a validation cannot be loaded, and the failure is of the file system or of the
content. -/
def Unloadable {σ : Type} (disk : Disk (StateM σ)) (invocation : Invocation) (s : σ) : Prop :=
  ∃ options e, invocation.command = .validate options ∧ loaded disk options s = .error e ∧
    e.kind?.isSome = true

end CommandLine

end RecordRegistry

namespace RecordRegistry.RefusedWitness

open CommandLine

/-- A tree without any file. -/
def bare : Tree := ⟨[], []⟩

def unknown : List Text := ["datasheet", "v9", "rows.json"]

def unknownStrict : List Text :=
  ["datasheet", "v9", "other.csv", "--strict", "--quiet", "--output", "out.json"]

theorem unlisted_unknown : Target.Unlisted ⟨"datasheet", some "v9"⟩ := by
  unfold Target.Unlisted
  decide

def versionless : List Text := ["validate", "datasheet", "--", "--", "rows.json"]

end RecordRegistry.RefusedWitness
