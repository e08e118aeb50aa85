import RecordRegistry.Text.DecimalDigit
import RecordRegistry.Text.Quoted
import RecordRegistry.Text.UpperCase

/-!
# Arguments of a command

Arguments are told apart by their look first: options, texts, and the divider `--` behind which
everything is text. Then they are taken from left to right. An option may be shortened as long as
one option alone begins so, and its text may be attached by an equals sign. A text `--` that comes
to stand alone, in a place or attached to an option, counts for a divider and leaves no text there.
-/

namespace RecordRegistry.CommandLine

/-- What an option does: it asks for help or for the version, it is on or off, it takes a text, or
it takes one of a few texts, possibly in letters of either case. -/
inductive OptionKind where
  | help
  | version
  | flag
  | text
  | choice (anyCase : Bool) (allowed : List Text)
deriving DecidableEq, Repr

/-- An option with its spellings, of which the last is its name. -/
structure OptionRule where
  spellings : List Text
  kind : OptionKind
deriving DecidableEq, Repr

namespace OptionRule

/-- The name under which what an option takes is kept. -/
def name (rule : OptionRule) : Text := rule.spellings.getLast?.getD ""

/-- Whether an option takes a text. -/
def takesText (rule : OptionRule) : Bool :=
  match rule.kind with
  | .text | .choice _ _ => true
  | .help | .version | .flag => false

/-- An option in messages. -/
def shown (rule : OptionRule) : Text := Text.intercalate "/" rule.spellings

end OptionRule

/-- What is wrong with arguments. -/
inductive UsageFault where
  | ambiguous (text : Text) (options : List Text)
  | ignoredText (option text : Text)
  | noText (option : Text)
  | invalidChoice (argument text : Text) (choices : List Text)
  | missing (places : List Text)
  | unrecognized (texts : List Text)
deriving DecidableEq, Repr

/-- The wording of a fault. -/
def UsageFault.message : UsageFault → Text
  | ambiguous text options =>
    "ambiguous option: " ++ text ++ " could match " ++ Text.intercalate ", " options
  | ignoredText option text =>
    "argument " ++ option ++ ": ignored explicit argument " ++ Text.quoted text
  | noText option => "argument " ++ option ++ ": expected one argument"
  | invalidChoice argument text choices =>
    "argument " ++ argument ++ ": invalid choice: " ++ Text.quoted text ++ " (choose from " ++
      Text.intercalate ", " (choices.map Text.quoted) ++ ")"
  | missing places =>
    "the following arguments are required: " ++ Text.intercalate ", " places
  | unrecognized texts => "unrecognized arguments: " ++ Text.intercalate " " texts

/-- An argument by its look. The spelling of an option is the full one, and the text attached to it
stands behind an equals sign, directly behind an option of one letter, or in the next argument. -/
inductive Sign where
  | text (text : Text)
  | divider
  | option (rule : OptionRule) (spelling : Text) (attached : Option Text)
  | unknown (text : Text)
deriving DecidableEq, Repr

namespace Sign

/-- Whether a text is a negative number, with or without a decimal point. A line end may follow. -/
def isNegativeNumber : List CodePoint → Bool
  | .char '-' :: rest =>
    let number := if rest.getLast? = some (.char '\n') then rest.dropLast else rest
    let whole := number.takeWhile Text.isDecimalDigit
    match number.drop whole.length with
    | [] => !whole.isEmpty
    | .char '.' :: fraction => !fraction.isEmpty && fraction.all Text.isDecimalDigit
    | _ => false
  | _ => false

/-- The rule of a spelling. -/
def rule? (rules : List OptionRule) (spelling : Text) : Option OptionRule :=
  rules.find? fun rule => spelling ∈ rule.spellings

/-- All spellings with their rules. -/
def spellings (rules : List OptionRule) : List (OptionRule × Text) :=
  rules.flatMap fun rule => rule.spellings.map (rule, ·)

/-- The part of a text before its first equals sign, and the part behind it if there is one. -/
def cutAtEquals (text : Text) : Text × Option Text :=
  let before := text.toList.takeWhile (· ≠ .char '=')
  match text.toList.drop before.length with
  | [] => (text, none)
  | _ :: behind => (Text.ofList before, some (Text.ofList behind))

/-- The options that a text which starts with a hyphen may mean without being one of their
spellings: those that begin so, or the option of one letter with something behind it. -/
def candidates (rules : List OptionRule) (text : Text) : List Sign :=
  match text.toList with
  | .char '-' :: .char '-' :: _ =>
    let cut := cutAtEquals text
    (spellings rules).filterMap fun known =>
      if cut.1.toList.isPrefixOf known.2.toList then some (.option known.1 known.2 cut.2) else none
  | .char '-' :: letter :: behind =>
    let short := Text.ofList ['-', letter]
    (spellings rules).filterMap fun known =>
      if known.2 = short then
        some (.option known.1 known.2 (some (Text.ofList behind)))
      else none
  | _ => []

/-- The spelling of an option; empty for anything else. -/
def spelling : Sign → Text
  | option _ spelling _ => spelling
  | _ => ""

/-- An argument before the divider by its look. -/
def ofText (rules : List OptionRule) (text : Text) : Except UsageFault Sign :=
  match text.toList with
  | .char '-' :: _ :: _ =>
    match rule? rules text with
    | some rule => .ok (.option rule text none)
    | none =>
      let cut := cutAtEquals text
      match cut.2.bind fun attached => (rule? rules cut.1).map (·, attached) with
      | some (rule, attached) => .ok (.option rule cut.1 (some attached))
      | none =>
        match candidates rules text with
        | [sign] => .ok sign
        | [] =>
          if isNegativeNumber text.toList || text.toList.contains ' ' then .ok (.text text)
          else .ok (.unknown text)
        | several => .error (.ambiguous text (several.map spelling))
  | _ => .ok (.text text)

/-- All arguments by their looks. -/
def ofTexts (rules : List OptionRule) : List Text → Except UsageFault (List Sign)
  | [] => .ok []
  | argument :: rest =>
    if argument = "--" then .ok (divider :: rest.map text)
    else
      match ofText rules argument with
      | .error fault => .error fault
      | .ok sign => (ofTexts rules rest).map (sign :: ·)

/-- Gives every option that takes a text, and has none attached to it, the text behind it. -/
def attachNext : List Sign → List Sign
  | option rule spelling none :: text following :: rest =>
    if rule.takesText then option rule spelling (some following) :: attachNext rest
    else option rule spelling none :: text following :: attachNext rest
  | sign :: rest => sign :: attachNext rest
  | [] => []

end Sign

/-- What is taken from arguments: the texts in the places of a command, the options with their
texts, and what there is no use for. A place or an option may be taken without getting a text. -/
structure Taken where
  places : List (Option Text)
  options : List (Text × Option Text)
  extras : List Text
deriving DecidableEq, Repr

namespace Taken

/-- What an option was taken with the last time: a text, or none. -/
def option? (taken : Taken) (name : Text) : Option (Option Text) :=
  taken.options.reverse.lookup name

/-- The text that an option was given the last time. -/
def text? (taken : Taken) (name : Text) : Option Text := (taken.option? name).join

end Taken

/-- What ends the reading of arguments early. -/
inductive Halt where
  | help
  | version
  | fault (fault : UsageFault)
deriving DecidableEq, Repr

/-- The text that is left of one that stands alone. -/
def textAlone (text : Text) : Option Text := if text = "--" then none else some text

/-- The text that an option without need of one refuses. Behind an option of one letter the letter
may be repeated, and what follows is refused. -/
def refusedText (spelling : Text) (attached : Option Text) : Option Text :=
  match spelling.toList, attached with
  | _, none => none
  | [.char '-', letter], some text =>
    let tail := text.toList.dropWhile (· = letter)
    if tail = [] ∧ text ≠ "" then none else some (Text.ofList tail)
  | _, some text => some text

/-- The text of an option, if it is one that the option takes. -/
def optionText (rule : OptionRule) (text : Text) : Except Halt Text :=
  match rule.kind with
  | .choice anyCase allowed =>
    let text := if anyCase then Text.upper text else text
    if text ∈ allowed then .ok text
    else .error (.fault (.invalidChoice rule.shown text allowed))
  | _ => .ok text

/-- Takes an option with the text attached to it. -/
def takeOption (taken : Taken) (rule : OptionRule) (spelling : Text)
    (attached : Option Text) : Except Halt Taken :=
  let add (text : Option Text) : Taken :=
    { taken with options := taken.options ++ [(rule.name, text)] }
  if rule.takesText then
    match attached.map textAlone with
    | none => .error (.fault (.noText rule.shown))
    | some none => .ok (add none)
    | some (some text) => (optionText rule text).map fun text => add (some text)
  else
    match refusedText spelling attached, rule.kind with
    | some text, _ => .error (.fault (.ignoredText rule.shown text))
    | none, .help => .error .help
    | none, .version => .error .version
    | none, _ => .ok (add none)

/-- Takes arguments from left to right into the places that are left. A divider goes with the text
at its side. -/
def take : Nat → Taken → List Sign → Except Halt Taken
  | _, taken, [] => .ok taken
  | left + 1, taken, .text text :: .divider :: rest =>
    take left { taken with places := taken.places ++ [some text] } rest
  | left + 1, taken, .divider :: .text text :: rest =>
    take left { taken with places := taken.places ++ [some text] } rest
  | left + 1, taken, .text text :: rest =>
    take left { taken with places := taken.places ++ [textAlone text] } rest
  | 0, taken, .text text :: rest => take 0 { taken with extras := taken.extras ++ [text] } rest
  | left, taken, .divider :: rest =>
      take left { taken with extras := taken.extras ++ [("--" : Text)] } rest
  | left, taken, .unknown text :: rest =>
    take left { taken with extras := taken.extras ++ [text] } rest
  | left, taken, .option rule spelling attached :: rest =>
    match takeOption taken rule spelling attached with
    | .error halt => .error halt
    | .ok taken => take left taken rest

/-- The form of a command: its options and the names of its places. -/
structure Form where
  options : List OptionRule
  places : List Text
deriving DecidableEq, Repr

/-- Takes all arguments of a command, whose places must all be taken. -/
def Form.read (form : Form) (arguments : List Text) : Except Halt Taken :=
  match Sign.ofTexts form.options arguments with
  | .error fault => .error (.fault fault)
  | .ok signs =>
    match take form.places.length ⟨[], [], []⟩ (Sign.attachNext signs) with
    | .error halt => .error halt
    | .ok taken =>
      if taken.places.length < form.places.length then
        .error (.fault (.missing (form.places.drop taken.places.length)))
      else .ok taken

end RecordRegistry.CommandLine
