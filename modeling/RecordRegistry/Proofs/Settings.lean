import RecordRegistry.Proofs.Declaration.Refusal
import RecordRegistry.Settings

/-!
# Settings and their variables

The settings are what four variables of the environment say, each by its own rule. They are refused
for the variables that break their rules, for all of these and for nothing else, and settings that
are written out as variables are read back.
-/

namespace RecordRegistry

namespace Text

/-- A character before the first small letter is its own upper case. -/
theorem upperCase_of_lt {c : CodePoint} (h : c.toNat < 0x61) : upperCase c = [c] := by
  have hruns : ∀ run ∈ upperCaseRuns, 0x61 ≤ run.first := by decide +kernel
  have hcodes : ∀ expansion ∈ upperCaseExpansions, 0x61 ≤ expansion.1 := by decide +kernel
  have hrun : upperCaseRuns.find? (·.holds c.toNat) = none := by
    rw [List.find?_eq_none]
    intro run hrun
    have hfirst := hruns run hrun
    simp only [CaseRun.holds, Bool.and_eq_true, decide_eq_true_eq]
    omega
  have hexpansion : upperCaseExpansions.lookup c.toNat = none := by
    rw [List.lookup_eq_none_iff]
    intro expansion hexpansion
    have hcode := hcodes expansion hexpansion
    simp only [bne_iff_ne, ne_eq]
    omega
  rw [upperCase, hrun, hexpansion]

/-- A text without small letters and without anything behind them is its own upper case. -/
theorem upper_of_all_lt {s : Text} (h : s.toList.all (·.toNat < 0x61) = true) :
    upper s = s := by
  have hself (chars : List CodePoint) (hchars : ∀ c ∈ chars, c.toNat < 0x61) :
      chars.flatMap upperCase = chars := by
    induction chars with
    | nil => rfl
    | cons c chars ih =>
        obtain ⟨hc, hrest⟩ := List.forall_mem_cons.mp hchars
        rw [List.flatMap_cons, upperCase_of_lt hc, ih hrest, List.singleton_append]
  rw [upper, hself s.toList (by simpa using h), Text.ofList_toList]

end Text

namespace LogLevel

theorem ofName?_eq_some_iff {name : Text} {level : LogLevel} :
    ofName? name = some level ↔ level.name = name := by
  constructor
  · intro h
    simpa using List.find?_some h
  · rintro rfl
    cases level <;> rfl

theorem upper_name (level : LogLevel) : Text.upper level.name = level.name := by
  apply Text.upper_of_all_lt
  cases level <;> rfl

end LogLevel

theorem Stage.ofName?_eq_some_iff {name : Text} {stage : Stage} :
    Stage.ofName? name = some stage ↔ stage.name = name := by
  constructor
  · intro h
    simpa using List.find?_some h
  · rintro rfl
    cases stage <;> rfl

namespace Checked

variable {α β : Type}

@[simp] theorem problems_map (f : α → β) (check : Checked α) :
    (check.map f).problems = check.problems := by
  cases check <;> rfl

@[simp] theorem problems_within (step : Step) (check : Checked α) :
    (check.within step).problems =
      check.problems.map fun problem => ⟨step :: problem.path, problem.cause⟩ := by
  cases check <;> rfl

/-- A check that tells of a problem wherever it refuses accepts where it tells of none. -/
theorem Grounded.exists_ok_iff {check : Checked α} (h : check.Grounded) :
    (∃ a, check = .ok a) ↔ check.problems = [] := by
  cases check with
  | ok a => exact iff_of_true ⟨a, rfl⟩ rfl
  | error found => exact iff_of_false (by simp) fun hnone => h (congrArg Except.error hnone)

end Checked

/-- The settings whose text must be one of a few, in the order in which their problems are told. -/
inductive Setting where
  | stage
  | logLevel
  | unknownFields
deriving DecidableEq, Repr

namespace Setting

/-- All settings with a rule for their text. -/
def all : List Setting := [stage, logLevel, unknownFields]

theorem mem_all (setting : Setting) : setting ∈ all := by
  cases setting <;> simp [all]

/-- The variable of a setting. -/
def variableName : Setting → Text
  | stage => "BENCHREG_ENV"
  | logLevel => "BENCHREG_LOG_LEVEL"
  | unknownFields => "BENCHREG_UNKNOWN_FIELDS"

/-- The name of a setting in problems. -/
def field : Setting → Text
  | stage => "env"
  | logLevel => "log_level"
  | unknownFields => "unknown_fields"

/-- The texts that a setting may have. A level may be written in letters of either case. -/
def Takes : Setting → Text → Prop
  | stage, text => text ∈ (["development", "test", "production"] : List Text)
  | logLevel, text =>
      Text.upper text ∈ (["CRITICAL", "ERROR", "WARNING", "INFO", "DEBUG"] : List Text)
  | unknownFields, text => text ∈ (["ignore", "reject"] : List Text)

instance (setting : Setting) (text : Text) : Decidable (setting.Takes text) :=
  match setting with
  | stage => inferInstanceAs (Decidable (text ∈ (_ : List Text)))
  | logLevel => inferInstanceAs (Decidable (Text.upper text ∈ (_ : List Text)))
  | unknownFields => inferInstanceAs (Decidable (text ∈ (_ : List Text)))

/-- What is wrong with a text that a setting may not have. -/
def cause : Setting → Text → Cause
  | stage, _ => .notAmong ["development", "test", "production"]
  | logLevel, text => .unknownLevel ["CRITICAL", "ERROR", "WARNING", "INFO", "DEBUG"] text
  | unknownFields, _ => .notAmong ["ignore", "reject"]

/-- A setting is in order when its variable is absent or empty, or has a text that it may have. -/
def InOrder (environment : Environment) (setting : Setting) : Prop :=
  ∀ text, environment.lookup setting.variableName = some text → text ≠ "" → setting.Takes text

instance (environment : Environment) (setting : Setting) :
    Decidable (setting.InOrder environment) :=
  inferInstanceAs (Decidable (∀ text ∈ environment.lookup setting.variableName,
    text ≠ "" → setting.Takes text))

/-- The problem of a setting that is not in order. -/
def problem (environment : Environment) (setting : Setting) : Problem :=
  ⟨[.key setting.field], setting.cause ((environment.lookup setting.variableName).getD "")⟩

/-- A check of the texts of a setting. It gives what has the text as its name, where `form` says
which texts count as the same, and finds fault with the texts that the setting may not have. -/
structure CheckedBy {α : Type} (setting : Setting) (check : Text → Checked α)
    (name : α → Text) (form : Text → Text) : Prop where
  eq_ok_iff (text : Text) (a : α) : check text = .ok a ↔ name a = form text
  takes_iff (text : Text) : setting.Takes text ↔ ∃ a, name a = form text
  ok_or_fail (text : Text) :
    (∃ a, check text = .ok a) ∨ check text = .fail (setting.cause text)

namespace CheckedBy

variable {α : Type} {setting : Setting} {check : Text → Checked α} {name : α → Text}
variable {form : Text → Text}

/-- Looking a text up by name, in its form that counts, is a check of the texts that are names. -/
theorem of_ofName? {ofName? : Text → Option α} (all : List α)
    (hcheck : ∀ text, check text = (ofName? (form text)).elim (.fail (setting.cause text)) .ok)
    (hname : ∀ {text a}, ofName? text = some a ↔ name a = text) (hall : ∀ a, a ∈ all)
    (htakes : ∀ text, setting.Takes text ↔ form text ∈ all.map name) :
    setting.CheckedBy check name form where
  eq_ok_iff text a := by
    rw [hcheck, ← hname]
    cases ofName? (form text) <;> simp [Checked.fail]
  takes_iff text := by
    rw [htakes, List.mem_map]
    exact exists_congr fun a => and_iff_right (hall a)
  ok_or_fail text := by
    rw [hcheck]
    cases ofName? (form text) with
    | none => exact .inr rfl
    | some a => exact .inl ⟨a, rfl⟩

theorem problems_eq (h : setting.CheckedBy check name form) (text : Text) :
    (check text).problems = if setting.Takes text then [] else [⟨[], setting.cause text⟩] := by
  have htakes : setting.Takes text ↔ ∃ a, check text = .ok a := by
    simp only [h.takes_iff, h.eq_ok_iff]
  rcases h.ok_or_fail text with ⟨a, ha⟩ | hfail
  · rw [if_pos (htakes.mpr ⟨a, ha⟩), ha, Checked.problems]
  · rw [if_neg, hfail, Checked.fail, Checked.problems]
    rw [htakes, hfail]
    simp [Checked.fail]

/-- What a setting becomes has the text of the variable as its name, or that of the default. -/
theorem setting_eq_ok_iff (h : setting.CheckedBy check name form) (default : α) {start : Text}
    (hdefault : name default = form start) (text? : Option Text) (a : α) :
    Settings.setting setting.field default check text? = .ok a ↔
      name a = form (text?.getD start) := by
  cases text? with
  | none =>
      rw [Option.getD_none, Settings.setting, ← h.eq_ok_iff, (h.eq_ok_iff start default).mpr hdefault]
  | some text => rw [Option.getD_some, Settings.setting, Checked.within_eq_ok_iff, h.eq_ok_iff]

theorem grounded_setting (h : setting.CheckedBy check name form) (default : α)
    (text? : Option Text) :
    (Settings.setting setting.field default check text?).Grounded := by
  cases text? with
  | none => exact Checked.grounded_ok default
  | some text =>
      rw [Settings.setting, Checked.grounded_within]
      rcases h.ok_or_fail text with ⟨a, ha⟩ | hfail
      · rw [ha]
        exact Checked.grounded_ok a
      · rw [hfail]
        exact Checked.grounded_fail _

/-- A setting has its problem where it is not in order, and no other. -/
theorem problems_setting (h : setting.CheckedBy check name form) (default : α)
    (environment : Environment) :
    (Settings.setting setting.field default check
      (Settings.value? environment setting.variableName)).problems =
        if setting.InOrder environment then [] else [setting.problem environment] := by
  cases hlookup : environment.lookup setting.variableName with
  | none =>
      have horder : setting.InOrder environment := by simp [InOrder, hlookup]
      rw [if_pos horder, Settings.value?, hlookup]
      rfl
  | some text =>
      by_cases htext : text = ""
      · have horder : setting.InOrder environment := by simp [InOrder, hlookup, htext]
        rw [if_pos horder, Settings.value?, hlookup, htext]
        rfl
      · have horder : setting.InOrder environment ↔ setting.Takes text := by
          simp [InOrder, hlookup, htext]
        rw [Settings.value?, hlookup, Option.filter_some_pos (by simpa using htext),
          Settings.setting, problem, hlookup, Option.getD_some]
        simp only [Checked.problems_within, h.problems_eq, horder]
        split <;> rfl

end CheckedBy

end Setting

namespace Settings

theorem checkedBy_stageOf : Setting.stage.CheckedBy stageOf Stage.name id := by
  refine .of_ofName? [.development, .test, .production] ?_ Stage.ofName?_eq_some_iff ?_
    fun _ => Iff.rfl
  · intro text
    rw [stageOf, id]
    cases Stage.ofName? text <;> rfl
  · intro stage
    cases stage <;> simp

theorem checkedBy_levelOf : Setting.logLevel.CheckedBy levelOf LogLevel.name Text.upper := by
  refine .of_ofName? LogLevel.all ?_ LogLevel.ofName?_eq_some_iff ?_ fun _ => Iff.rfl
  · intro text
    rw [levelOf]
    cases LogLevel.ofName? (Text.upper text) <;> rfl
  · intro level
    cases level <;> simp [LogLevel.all]

theorem checkedBy_unknownFieldsOf :
    Setting.unknownFields.CheckedBy unknownFieldsOf UnknownFields.name id := by
  refine .of_ofName? [.ignore, .reject] ?_
    (UnknownFields.ofName?_eq_some_iff.trans eq_comm) ?_ fun _ => Iff.rfl
  · intro text
    rw [unknownFieldsOf, id]
    cases UnknownFields.ofName? text <;> rfl
  · intro mode
    cases mode <;> simp

/-- The settings are what the variables say: the text of each, or where there is none a text that is
fixed. -/
structure SaidBy (environment : Environment) (settings : Settings) : Prop where
  stage : settings.stage.name = (value? environment "BENCHREG_ENV").getD "development"
  latestVersion : settings.latestVersion = value? environment "BENCHREG_LATEST_VERSION"
  logLevel : settings.logLevel.name =
    Text.upper ((value? environment "BENCHREG_LOG_LEVEL").getD "WARNING")
  unknownFields :
    settings.unknownFields.name = (value? environment "BENCHREG_UNKNOWN_FIELDS").getD "ignore"

variable {environment : Environment} {settings : Settings}

theorem ofEnvironment_of_ok (h : check environment = .ok settings) :
    ofEnvironment environment = .ok settings := by
  rw [ofEnvironment, h]
  rfl

theorem ofEnvironment_of_error {problems : List Problem} (h : check environment = .error problems) :
    ofEnvironment environment = .error ⟨"Settings", problems⟩ := by
  rw [ofEnvironment, h]
  rfl

theorem ofEnvironment_eq_ok_iff_check :
    ofEnvironment environment = .ok settings ↔ check environment = .ok settings := by
  cases hcheck : check environment with
  | ok found => rw [ofEnvironment_of_ok hcheck, Except.ok.injEq, Except.ok.injEq]
  | error problems => simp [ofEnvironment_of_error hcheck]

theorem ofEnvironment_eq_ok_iff :
    ofEnvironment environment = .ok settings ↔ settings.SaidBy environment := by
  have hstage := checkedBy_stageOf.setting_eq_ok_iff .development rfl
  have hlevel := checkedBy_levelOf.setting_eq_ok_iff .warning
    (LogLevel.upper_name .warning).symm
  have hmode := checkedBy_unknownFieldsOf.setting_eq_ok_iff .ignore rfl
  simp only [Setting.field] at hstage hlevel hmode
  simp only [ofEnvironment_eq_ok_iff_check, check, Checked.map_eq_ok_iff, Checked.both_eq_ok_iff,
    hstage, hlevel, hmode]
  constructor
  · rintro ⟨⟨stage, level, mode⟩, ⟨hs, hl, hm⟩, rfl⟩
    exact ⟨hs, rfl, hl, hm⟩
  · rintro ⟨hs, hv, hl, hm⟩
    refine ⟨(settings.stage, settings.logLevel, settings.unknownFields), ⟨hs, hl, hm⟩, ?_⟩
    rw [← hv]

/-- The problems of the settings that are not in order, in the order of the settings. -/
def problemsIn (environment : Environment) : List Problem :=
  (Setting.all.filter fun setting => ¬ setting.InOrder environment).map
    (Setting.problem environment)

theorem problemsIn_eq_nil_iff :
    problemsIn environment = [] ↔ ∀ setting : Setting, setting.InOrder environment := by
  simp [problemsIn, Setting.mem_all]

theorem problems_check (environment : Environment) :
    (check environment).problems = problemsIn environment := by
  have hstage := checkedBy_stageOf.problems_setting .development environment
  have hlevel := checkedBy_levelOf.problems_setting .warning environment
  have hmode := checkedBy_unknownFieldsOf.problems_setting .ignore environment
  simp only [Setting.field, Setting.variableName] at hstage hlevel hmode
  simp only [check, Checked.problems_map, Checked.problems_both, hstage, hlevel, hmode, problemsIn,
    Setting.all, List.filter_cons, List.filter_nil, decide_not]
  by_cases hs : Setting.stage.InOrder environment <;>
    by_cases hl : Setting.logLevel.InOrder environment <;>
      by_cases hm : Setting.unknownFields.InOrder environment <;> simp [hs, hl, hm]

theorem grounded_check (environment : Environment) : (check environment).Grounded := by
  rw [check, Checked.grounded_map]
  exact (checkedBy_stageOf.grounded_setting _ _).both
    ((checkedBy_levelOf.grounded_setting _ _).both
      (checkedBy_unknownFieldsOf.grounded_setting _ _))

/-- Settings are refused where some are not in order, with the problems of all of these. -/
theorem ofEnvironment_eq_error_iff {refusal : Refusal} :
    ofEnvironment environment = .error refusal ↔
      (∃ setting : Setting, ¬ setting.InOrder environment) ∧
        refusal = ⟨"Settings", problemsIn environment⟩ := by
  have hok := (grounded_check environment).exists_ok_iff
  rw [problems_check, problemsIn_eq_nil_iff] at hok
  rw [← Classical.not_forall, ← hok, ← problems_check]
  cases hcheck : check environment with
  | ok settings => simp [ofEnvironment_of_ok hcheck]
  | error problems => simp [ofEnvironment_of_error hcheck, Checked.problems, eq_comm]

/-- The variables that the settings read. -/
def variableNames : List Text :=
  ["BENCHREG_ENV", "BENCHREG_LATEST_VERSION", "BENCHREG_LOG_LEVEL", "BENCHREG_UNKNOWN_FIELDS"]

theorem value?_eq_some_iff {name text : Text} :
    value? environment name = some text ↔ environment.lookup name = some text ∧ text ≠ "" := by
  simp [value?, Option.filter_eq_some_iff]

/-- Settings see the texts of their variables, and neither an empty one nor any other variable. -/
theorem ofEnvironment_congr {other : Environment}
    (h : ∀ name ∈ variableNames, ∀ text : Text, text ≠ "" →
      (other.lookup name = some text ↔ environment.lookup name = some text)) :
    ofEnvironment other = ofEnvironment environment := by
  have hvalue : ∀ name ∈ variableNames, value? other name = value? environment name := by
    intro name hname
    apply Option.ext
    intro text
    rw [value?_eq_some_iff, value?_eq_some_iff]
    exact and_congr_left fun htext => h name hname text htext
  simp only [variableNames, List.forall_mem_cons] at hvalue
  obtain ⟨hstage, hversion, hlevel, hmode, -⟩ := hvalue
  rw [ofEnvironment, ofEnvironment, check, check, hstage, hversion, hlevel, hmode]

/-- An environment in which settings are spelled out; a version that is not set is left out. -/
structure SpelledBy (environment : Environment) (settings : Settings) : Prop where
  stage : environment.lookup ("BENCHREG_ENV" : Text) = some settings.stage.name
  latestVersion : environment.lookup ("BENCHREG_LATEST_VERSION" : Text) = settings.latestVersion
  logLevel : environment.lookup ("BENCHREG_LOG_LEVEL" : Text) = some settings.logLevel.name
  unknownFields :
    environment.lookup ("BENCHREG_UNKNOWN_FIELDS" : Text) = some settings.unknownFields.name

/-- Settings that some environment asks for are read from any in which they are spelled out. -/
theorem SpelledBy.ofEnvironment_eq {other : Environment} (h : settings.SpelledBy other)
    (hsaid : settings.SaidBy environment) : ofEnvironment other = .ok settings := by
  have hstage : settings.stage.name ≠ "" := by cases settings.stage <;> decide
  have hlevel : settings.logLevel.name ≠ "" := by cases settings.logLevel <;> decide
  have hmode : settings.unknownFields.name ≠ "" := by cases settings.unknownFields <;> decide
  rw [ofEnvironment_eq_ok_iff]
  constructor
  · rw [value?_eq_some_iff.mpr ⟨h.stage, hstage⟩, Option.getD_some]
  · rw [value?, h.latestVersion, hsaid.latestVersion, value?, Option.filter_filter]
    simp
  · rw [value?_eq_some_iff.mpr ⟨h.logLevel, hlevel⟩, Option.getD_some, LogLevel.upper_name]
  · rw [value?_eq_some_iff.mpr ⟨h.unknownFields, hmode⟩, Option.getD_some]

/-- The log is printed at the level of the settings when no other is asked for. -/
theorem logLevelName_none (settings : Settings) :
    settings.logLevelName none = settings.logLevel.name := by
  simp only [logLevelName, Option.getD_none]
  exact settings.logLevel.upper_name

end Settings

end RecordRegistry

namespace RecordRegistry.SettingsWitness

/-- A level in small letters, of which one is without its dot, an empty mode, and a variable that
the settings do not know. -/
def environment : Environment :=
  [("BENCHREG_LOG_LEVEL", "crıtical"), ("BENCHREG_UNKNOWN_FIELDS", ""), ("BENCHREG_OUT", "a")]

def settings : Settings := ⟨.development, none, .critical, .ignore⟩

/-- The settings spelled out. -/
def spelled : Environment := [("BENCHREG_ENV", "development"), ("BENCHREG_LOG_LEVEL", "CRITICAL"),
  ("BENCHREG_UNKNOWN_FIELDS", "ignore")]

end RecordRegistry.SettingsWitness
