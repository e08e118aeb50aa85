import RecordRegistry.CommandLine.Command
import RecordRegistry.Proofs.CommandLine.Looks
import RecordRegistry.Proofs.CommandLine.Taken

/-!
# A flag added to arguments

A flag that is added to the arguments of a command, at any place where the arguments are still
accepted, is taken as one more option and changes nothing else that is taken. In front of the
arguments it is always accepted.
-/

namespace RecordRegistry.CommandLine

open Taken (Added)

section Take

variable {flag : OptionRule} {spelling name : Text} {left : Nat} {taken all all' : Taken}
variable {signs : List Sign}

theorem take_flag (hflag : flag.kind = .flag) (left : Nat) (taken : Taken) (signs : List Sign) :
    take left taken (.option flag spelling none :: signs) =
      take left { taken with options := taken.options ++ [(flag.name, none)] } signs := by
  simp [take, takeOption, OptionRule.takesText, hflag, refusedText]

theorem added_of_take (h : take left taken signs = .ok all)
    (h' : take left { taken with options := taken.options ++ [(name, none)] } signs = .ok all') :
    Added name all all' := by
  obtain ⟨later, hlater, rfl⟩ := take_eq_ok_iff.mp h
  obtain ⟨later', hlater', rfl⟩ := take_eq_ok_iff.mp h'
  rw [hlater] at hlater'
  cases hlater'
  exact ⟨rfl, rfl, taken.options, later.options, rfl, by simp [Taken.append]⟩

/-- Without extras, a divider that no text stands before goes with the text behind it. -/
theorem take_divider_cases (h : take left taken (.divider :: signs) = .ok all)
    (hextras : all.extras = []) :
    ∃ fewer text rest, left = fewer + 1 ∧ signs = .text text :: rest ∧
      take fewer { taken with places := taken.places ++ [some text] } rest = .ok all := by
  by_cases hnext : ∃ fewer text rest, left = fewer + 1 ∧ signs = .text text :: rest
  · obtain ⟨fewer, text, rest, rfl, rfl⟩ := hnext
    exact ⟨fewer, text, rest, rfl, rfl, h⟩
  · rw [take] at h
    · simpa using extras_eq_nil_of_take h hextras
    · exact fun fewer text rest hleft hsigns => hnext ⟨fewer, text, rest, hleft, hsigns⟩

/-- A flag between a text and the divider at its side leaves the divider to the next text. -/
theorem added_of_take_divider (hflag : flag.kind = .flag) {text : Text} (htext : text ≠ "--")
    {texts : List Text}
    (h : take (left + 1) taken (.text text :: .divider :: texts.map .text) = .ok all)
    (h' : take (left + 1) taken
      (.text text :: .option flag spelling none :: .divider :: texts.map .text) = .ok all')
    (hextras' : all'.extras = []) (hplaces : ∀ place ∈ all.places, place.isSome = true) :
    Added flag.name all all' := by
  rw [take] at h
  rw [take_text (by simp), take_flag hflag, textAlone, if_neg htext] at h'
  obtain ⟨fewer, next, rest, rfl, hrest, h'⟩ := take_divider_cases h' hextras'
  cases texts with
  | nil => cases hrest
  | cons first texts =>
      cases hrest
      have hdivider : ∀ rest, texts.map Sign.text ≠ .divider :: rest := by
        cases texts <;> simp
      rw [List.map_cons, take_text hdivider] at h
      have hnext : textAlone next = some next := by
        have hsome := hplaces (textAlone next) (mem_places_of_take h (by simp))
        rw [textAlone] at hsome ⊢
        split at hsome
        · cases hsome
        · next hne => rw [if_neg hne]
      rw [hnext] at h
      exact added_of_take h h'

/-- A flag among arguments in front of the divider is one more option. -/
theorem added_of_take_insert (hflag : flag.kind = .flag) {before after : List Sign}
    (hbefore : ∀ sign ∈ before, sign ≠ .divider ∧ sign ≠ .text "--")
    (hafter : ∀ rest, after = .divider :: rest → ∃ texts : List Text, rest = texts.map .text)
    (h : take left taken (before ++ after) = .ok all)
    (h' : take left taken (before ++ .option flag spelling none :: after) = .ok all')
    (hextras : all.extras = []) (hextras' : all'.extras = [])
    (hplaces : ∀ place ∈ all.places, place.isSome = true) : Added flag.name all all' := by
  induction before generalizing left taken with
  | nil =>
      rw [List.nil_append, take_flag hflag] at h'
      exact added_of_take h h'
  | cons sign before ih =>
      have hhead := hbefore sign List.mem_cons_self
      have hbefore' : ∀ sign ∈ before, sign ≠ .divider ∧ sign ≠ .text "--" :=
        fun other hother => hbefore other (List.mem_cons_of_mem _ hother)
      rw [List.cons_append] at h h'
      cases sign with
      | divider => exact absurd rfl hhead.1
      | unknown text =>
          rw [take] at h
          simpa using extras_eq_nil_of_take h hextras
      | option rule spelling' attached =>
          rw [take] at h h'
          cases htaken : takeOption taken rule spelling' attached with
          | error halt =>
              rw [htaken] at h
              cases h
          | ok taken' =>
              rw [htaken] at h h'
              exact ih hbefore' h h'
      | text text =>
          have htext : text ≠ "--" := fun heq => hhead.2 (by rw [heq])
          cases left with
          | zero =>
              rw [take] at h
              simpa using extras_eq_nil_of_take h hextras
          | succ left =>
              cases before with
              | nil =>
                  rw [List.nil_append] at h h'
                  by_cases hdivider : ∃ rest, after = .divider :: rest
                  · obtain ⟨rest, rfl⟩ := hdivider
                    obtain ⟨texts, rfl⟩ := hafter rest rfl
                    exact added_of_take_divider hflag htext h h' hextras' hplaces
                  · rw [take_text fun rest hrest => hdivider ⟨rest, hrest⟩] at h
                    rw [take_text (by simp)] at h'
                    exact ih hbefore' h h'
              | cons next before =>
                  have hnext : next ≠ .divider := (hbefore' next List.mem_cons_self).1
                  rw [take_text (by simp [hnext])] at h h'
                  exact ih hbefore' h h'

end Take

section Form

variable {form : Form} {flag : OptionRule} {taken taken' : Taken}
variable {arguments before after : List Text} {argument : Text}

theorem Form.read_eq_ok_iff :
    form.read arguments = .ok taken ↔ ∃ signs, Sign.ofTexts form.options arguments = .ok signs ∧
      take form.places.length .nothing (Sign.attachNext signs) = .ok taken ∧
      form.places.length ≤ taken.places.length := by
  rw [Form.read, Taken.nothing]
  cases Sign.ofTexts form.options arguments with
  | error fault => simp
  | ok signs =>
      simp only [Except.ok.injEq, exists_eq_left']
      cases take form.places.length ⟨[], [], []⟩ (Sign.attachNext signs) with
      | error halt => simp
      | ok all =>
          by_cases hplaces : all.places.length < form.places.length
          · simp only [hplaces, ↓reduceIte, reduceCtorEq, Except.ok.injEq, false_iff, not_and]
            rintro rfl
            omega
          · simp only [hplaces, ↓reduceIte, Except.ok.injEq, iff_self_and]
            rintro rfl
            omega

/-- The places of a command are all taken, and no more. -/
theorem Form.length_places_of_read (h : form.read arguments = .ok taken) :
    taken.places.length = form.places.length := by
  obtain ⟨signs, -, htake, hle⟩ := read_eq_ok_iff.mp h
  have hge := length_places_le_of_take htake
  simp only [Taken.nothing, List.length_nil] at hge
  omega

/-- A flag in front of accepted arguments is accepted. -/
theorem Form.read_flag_cons (hflag : flag.kind = .flag) (hne : argument ≠ "--")
    (hargument : Sign.ofText form.options argument = .ok (.option flag argument none))
    (h : form.read arguments = .ok taken) :
    ∃ taken', form.read (argument :: arguments) = .ok taken' ∧ Added flag.name taken taken' := by
  obtain ⟨signs, hsigns, htake, hplaces⟩ := read_eq_ok_iff.mp h
  have htake' : take form.places.length .nothing
      (Sign.attachNext (.option flag argument none :: signs)) =
        .ok (Taken.append ⟨[], [(flag.name, none)], []⟩ taken) := by
    rw [Sign.attachNext_flag hflag, take_flag hflag, take_eq_ok_iff]
    exact ⟨taken, htake, rfl⟩
  refine ⟨_, read_eq_ok_iff.mpr ⟨_, ?_, htake', by simpa [Taken.append] using hplaces⟩, ?_⟩
  · exact (Sign.ofTexts_cons_eq_ok_iff hne).mpr ⟨_, signs, hargument, hsigns, rfl⟩
  · exact ⟨rfl, rfl, [], taken.options, rfl, rfl⟩

/-- A flag that is added to accepted arguments without extras, and is accepted there, is one more
option. Behind the divider it would be a text for which there is no place. -/
theorem Form.added_of_read (hflag : flag.kind = .flag) (hne : argument ≠ "--")
    (hargument : Sign.ofText form.options argument = .ok (.option flag argument none))
    (h : form.read (before ++ after) = .ok taken)
    (h' : form.read (before ++ argument :: after) = .ok taken')
    (hextras : taken.extras = []) (hextras' : taken'.extras = [])
    (hplaces : ∀ place ∈ taken.places, place.isSome = true) : Added flag.name taken taken' := by
  obtain ⟨signs, hsigns, htake, -⟩ := read_eq_ok_iff.mp h
  obtain ⟨signs', hsigns', htake', -⟩ := read_eq_ok_iff.mp h'
  by_cases hdivider : ("--" : Text) ∈ before
  · obtain ⟨front, behind, rfl, hfront⟩ := List.eq_append_cons_of_mem hdivider
    rw [List.append_assoc, List.cons_append] at hsigns hsigns'
    obtain ⟨signs, hsigns, hattached⟩ := Sign.attachNext_of_ofTexts_divider hfront hsigns
    obtain ⟨signs', hsigns', hattached'⟩ := Sign.attachNext_of_ofTexts_divider hfront hsigns'
    have hlength := length_places_of_take htake hextras
    have hlength' := length_places_of_take htake' hextras'
    rw [hsigns] at hsigns'
    cases hsigns'
    rw [hattached, length_places_of_read h] at hlength
    rw [hattached', length_places_of_read h'] at hlength'
    simp only [List.countP_append, List.countP_cons, List.map_append, List.map_cons, Sign.isText,
      ↓reduceIte] at hlength hlength'
    omega
  · obtain ⟨front, back, hfront, hback, rfl, rfl⟩ :=
      Sign.ofTexts_insert hdivider hne hargument hsigns hsigns'
    rw [Sign.attachNext_append (by simp), Sign.attachNext_flag hflag] at htake'
    rw [Sign.attachNext_append] at htake
    · refine added_of_take_insert hflag ?_ ?_ htake htake' hextras hextras' hplaces
      · intro sign hsign
        rcases Sign.mem_of_mem_attachNext hsign with hsign | ⟨rule, spelling, attached, rfl⟩
        · exact Sign.ne_divider_of_ofTexts hdivider hfront sign hsign
        · simp
      · intro rest hrest
        obtain ⟨rest, rfl, rfl⟩ := Sign.exists_of_attachNext_divider hrest
        obtain ⟨texts, rfl⟩ := Sign.texts_of_ofTexts_divider hback
        exact ⟨texts, Sign.attachNext_texts texts⟩
    · exact fun _ rule spelling hmem => takesText_of_take htake' (List.mem_append_left _ hmem)

end Form

namespace Request

/-- The option that keeps a command quiet. -/
def quietOption : OptionRule := ⟨["--quiet"], .flag⟩

/-- The form of a validation. -/
def validateForm : Form := (forms.lookup ("validate" : Text)).getD ⟨[], []⟩

/-- A command together with what all commands are told by options. -/
def invocationOf (command : Command) (taken : Taken) : Invocation :=
  ⟨command, (taken.option? "--quiet").isSome, (taken.text? "--log-level").bind LogLevel.ofName?⟩

theorem ofCommand_eq_invoke_iff {arguments : List Text} {invocation : Invocation} :
    ofCommand [] "validate" arguments = .invoke invocation ↔
      ∃ taken, validateForm.read arguments = .ok taken ∧ taken.extras = [] ∧
        ∃ command, Command.ofTaken? "validate" taken = some command ∧
          invocation = invocationOf command taken := by
  have hform : forms.lookup ("validate" : Text) = some validateForm := rfl
  simp only [ofCommand, hform, List.nil_append]
  cases validateForm.read arguments with
  | error halt => cases halt <;> simp
  | ok taken =>
      cases hextras : taken.extras with
      | cons extra extras => simp [hextras]
      | nil =>
          cases hcommand : Command.ofTaken? "validate" taken with
          | none => simp [hextras, hcommand]
          | some command => simp [hextras, hcommand, invocationOf, eq_comm]

/-- A validation is read by its form, once the arguments have been seen to have looks. -/
theorem ofArguments_eq_invoke_iff {arguments : List Text} {invocation : Invocation} :
    ofArguments ("validate" :: arguments) = .invoke invocation ↔
      (∃ signs, Sign.ofTexts programOptions arguments = .ok signs) ∧
        ofCommand [] "validate" arguments = .invoke invocation := by
  have hname : Sign.ofText programOptions "validate" = .ok (.text "validate") := by
    rfl
  rw [ofArguments, Sign.ofTexts, if_neg (by decide), hname]
  cases Sign.ofTexts programOptions arguments with
  | error fault => simp [Except.map]
  | ok signs => simp [Except.map, find]

theorem ofTaken?_added {name : Text} {taken taken' : Taken} (h : Added "--quiet" taken taken') :
    Command.ofTaken? name taken' = Command.ofTaken? name taken := by
  simp only [Command.ofTaken?, h.places, h.text?_of_ne (by decide : ("--order" : Text) ≠ "--quiet"),
    h.text?_of_ne (by decide : ("--format" : Text) ≠ "--quiet"),
    h.option?_of_ne (by decide : ("--strict" : Text) ≠ "--quiet"),
    h.option?_of_ne (by decide : ("--output" : Text) ≠ "--quiet")]

theorem invocationOf_added {taken taken' : Taken} (h : Added "--quiet" taken taken')
    (command : Command) :
    invocationOf command taken' = { invocationOf command taken with quiet := true } := by
  rw [invocationOf, h.isSome_option?, h.text?_of_ne (by decide), invocationOf]

/-- A validation for which every place has got a text. -/
theorem isSome_of_ofTaken? {taken : Taken} {options : ValidateOptions}
    (h : Command.ofTaken? "validate" taken = some (.validate options)) :
    ∀ place ∈ taken.places, place.isSome = true := by
  simp only [Command.ofTaken?, Text.ofString_inj, String.reduceEq, ↓reduceIte] at h
  split at h <;> cases h
  next hplaces =>
    rw [hplaces]
    simp

variable {arguments before after : List Text} {invocation invocation' : Invocation}

theorem ofText_quiet : Sign.ofText validateForm.options "--quiet" =
    .ok (.option quietOption "--quiet" none) := by
  rfl

/-- A validation may always be told to keep quiet. -/
theorem ofArguments_quiet_cons (h : ofArguments ("validate" :: arguments) = .invoke invocation) :
    ofArguments ("validate" :: "--quiet" :: arguments) =
      .invoke { invocation with quiet := true } := by
  obtain ⟨⟨signs, hsigns⟩, hcommand⟩ := ofArguments_eq_invoke_iff.mp h
  obtain ⟨taken, htaken, hextras, command, hread, rfl⟩ := ofCommand_eq_invoke_iff.mp hcommand
  have hne : ("--quiet" : Text) ≠ "--" := by decide
  obtain ⟨taken', htaken', hadded⟩ := Form.read_flag_cons rfl hne ofText_quiet htaken
  refine ofArguments_eq_invoke_iff.mpr ⟨⟨.unknown "--quiet" :: signs, ?_⟩, ?_⟩
  · exact (Sign.ofTexts_cons_eq_ok_iff hne).mpr ⟨_, signs, rfl, hsigns, rfl⟩
  · exact ofCommand_eq_invoke_iff.mpr ⟨taken', htaken', hadded.extras.trans hextras, command,
      (ofTaken?_added hadded).trans hread, (invocationOf_added hadded command).symm⟩

/-- Wherever a validation is told to keep quiet, it does nothing else for it. -/
theorem eq_quiet_of_ofArguments {options : ValidateOptions}
    (hoptions : invocation.command = .validate options)
    (h : ofArguments ("validate" :: (before ++ after)) = .invoke invocation)
    (h' : ofArguments ("validate" :: (before ++ ("--quiet" : Text) :: after)) =
      .invoke invocation') :
    invocation' = { invocation with quiet := true } := by
  obtain ⟨taken, htaken, hextras, command, hcommand, rfl⟩ :=
    ofCommand_eq_invoke_iff.mp (ofArguments_eq_invoke_iff.mp h).2
  obtain ⟨taken', htaken', hextras', command', hcommand', rfl⟩ :=
    ofCommand_eq_invoke_iff.mp (ofArguments_eq_invoke_iff.mp h').2
  cases hoptions
  have hadded : Added "--quiet" taken taken' :=
    Form.added_of_read rfl (by decide) ofText_quiet htaken htaken' hextras hextras'
      (isSome_of_ofTaken? hcommand)
  rw [ofTaken?_added hadded, hcommand] at hcommand'
  cases hcommand'
  exact invocationOf_added hadded _

end Request

end RecordRegistry.CommandLine
