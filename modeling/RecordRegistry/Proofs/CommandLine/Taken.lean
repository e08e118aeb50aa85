import RecordRegistry.CommandLine.Arguments

/-!
# What is taken from arguments

What arguments leave in the places, the options and the extras is put behind what was there before
and does not depend on it. Without extras every text has taken a place, of which there are no more
than were left, and every option that takes a text has got one.
-/

namespace RecordRegistry.CommandLine

namespace Taken

/-- What was taken earlier, and behind it what was taken later. -/
def append (earlier later : Taken) : Taken :=
  ⟨earlier.places ++ later.places, earlier.options ++ later.options, earlier.extras ++ later.extras⟩

/-- Nothing taken yet. -/
def nothing : Taken := ⟨[], [], []⟩

@[simp] theorem append_nothing (taken : Taken) : taken.append nothing = taken := by
  simp [append, nothing]

/-- The same is taken, but for one more option without a text. -/
structure Added (name : Text) (taken taken' : Taken) : Prop where
  places : taken'.places = taken.places
  extras : taken'.extras = taken.extras
  options : ∃ earlier later, taken.options = earlier ++ later ∧
    taken'.options = earlier ++ (name, none) :: later

section Added

variable {name : Text} {taken taken' : Taken}

theorem Added.option?_of_ne (h : Added name taken taken') {other : Text} (hne : other ≠ name) :
    taken'.option? other = taken.option? other := by
  obtain ⟨earlier, later, hoptions, hoptions'⟩ := h.options
  simp [option?, hoptions, hoptions', List.lookup_append, List.lookup_cons, beq_false_of_ne hne]

theorem Added.text?_of_ne (h : Added name taken taken') {other : Text} (hne : other ≠ name) :
    taken'.text? other = taken.text? other := by
  rw [text?, h.option?_of_ne hne, text?]

theorem Added.isSome_option? (h : Added name taken taken') :
    (taken'.option? name).isSome = true := by
  obtain ⟨earlier, later, -, hoptions'⟩ := h.options
  simp [option?, hoptions', List.lookup_append]

end Added

end Taken

/-- What an option gets does not depend on what was taken before. -/
theorem exists_takeOption (rule : OptionRule) (spelling : Text) (attached : Option Text) :
    ∃ got : Except Halt (Option Text), ∀ taken : Taken,
      takeOption taken rule spelling attached =
        got.map fun text => { taken with options := taken.options ++ [(rule.name, text)] } := by
  by_cases htext : rule.takesText = true
  · cases hattached : attached.map textAlone with
    | none => exact ⟨.error _, fun _ => by simp only [takeOption, htext, ↓reduceIte, hattached]; rfl⟩
    | some alone =>
        cases alone with
        | none =>
            exact ⟨.ok none, fun _ => by simp only [takeOption, htext, ↓reduceIte, hattached]; rfl⟩
        | some text =>
            refine ⟨(optionText rule text).map some, fun taken => ?_⟩
            simp only [takeOption, htext, ↓reduceIte, hattached]
            cases optionText rule text <;> rfl
  · simp only [takeOption, htext, Bool.false_eq_true, ↓reduceIte]
    cases refusedText spelling attached with
    | some text => exact ⟨.error _, fun _ => rfl⟩
    | none =>
        cases rule.kind with
        | help => exact ⟨.error .help, fun _ => rfl⟩
        | version => exact ⟨.error .version, fun _ => rfl⟩
        | flag | text | choice => exact ⟨.ok none, fun _ => rfl⟩

theorem places_of_takeOption {taken taken' : Taken} {rule : OptionRule} {spelling : Text}
    {attached : Option Text} (h : takeOption taken rule spelling attached = .ok taken') :
    taken'.places = taken.places := by
  obtain ⟨got, hgot⟩ := exists_takeOption rule spelling attached
  rw [hgot] at h
  cases got with
  | error halt => cases h
  | ok text =>
      cases h
      rfl

theorem takeOption_append (earlier taken : Taken) (rule : OptionRule) (spelling : Text)
    (attached : Option Text) :
    takeOption (earlier.append taken) rule spelling attached =
      (takeOption taken rule spelling attached).map earlier.append := by
  obtain ⟨got, hgot⟩ := exists_takeOption rule spelling attached
  rw [hgot, hgot]
  cases got with
  | error halt => rfl
  | ok text => simp [Except.map, Taken.append]

/-- What is taken does not depend on what was taken before. -/
theorem take_append (earlier : Taken) (left : Nat) (taken : Taken) (signs : List Sign) :
    take left (earlier.append taken) signs = (take left taken signs).map earlier.append := by
  fun_induction take left taken signs with
  | case1 => rfl
  | case2 _ _ _ _ ih | case3 _ _ _ _ ih | case4 _ _ _ _ _ ih | case5 _ _ _ ih | case7 _ _ _ _ ih =>
      simpa [take, Taken.append] using ih
  | case6 left taken rest hrest ih =>
      rw [take]
      · simpa [Taken.append] using ih
      · exact hrest
  | case8 left taken rule spelling attached rest halt hhalt =>
      simp [take, takeOption_append, hhalt, Except.map]
  | case9 left taken rule spelling attached rest taken' htaken ih =>
      simpa [take, takeOption_append, htaken, Except.map] using ih

section Take

variable {left : Nat} {taken taken' : Taken} {signs : List Sign}

theorem take_eq_ok_iff :
    take left taken signs = .ok taken' ↔
      ∃ later, take left .nothing signs = .ok later ∧ taken' = taken.append later := by
  rw [← taken.append_nothing, take_append, taken.append_nothing]
  cases take left .nothing signs with
  | error halt => simp [Except.map]
  | ok later => simp [Except.map, eq_comm]

theorem extras_eq_nil_of_take (h : take left taken signs = .ok taken')
    (hextras : taken'.extras = []) : taken.extras = [] := by
  obtain ⟨later, -, rfl⟩ := take_eq_ok_iff.mp h
  exact (List.append_eq_nil_iff.mp hextras).1

theorem mem_places_of_take (h : take left taken signs = .ok taken') {place : Option Text}
    (hplace : place ∈ taken.places) : place ∈ taken'.places := by
  obtain ⟨later, -, rfl⟩ := take_eq_ok_iff.mp h
  exact List.mem_append_left _ hplace

/-- A text without a divider behind it takes the next place. -/
theorem take_text {text : Text} (h : ∀ rest, signs ≠ .divider :: rest) :
    take (left + 1) taken (.text text :: signs) =
      take left { taken with places := taken.places ++ [textAlone text] } signs := by
  rw [take]
  exact h

/-- An option that takes a text got one if it was accepted. -/
theorem takesText_of_take (h : take left taken signs = .ok taken') {rule : OptionRule}
    {spelling : Text} (hmem : .option rule spelling none ∈ signs) : rule.takesText = false := by
  fun_induction take left taken signs with
  | case1 => cases hmem
  | case2 _ _ _ _ ih | case3 _ _ _ _ ih | case4 _ _ _ _ _ ih | case5 _ _ _ ih | case6 _ _ _ _ ih
  | case7 _ _ _ _ ih => exact ih h (by simpa using hmem)
  | case8 => cases h
  | case9 left taken other spelling' attached rest taken'' htaken ih =>
      rcases List.mem_cons.mp hmem with heq | hmem
      · cases heq
        cases htext : rule.takesText with
        | false => rfl
        | true => simp [takeOption, htext] at htaken
      · exact ih h hmem

/-- No more places are taken than are left. -/
theorem length_places_le_of_take (h : take left taken signs = .ok taken') :
    taken'.places.length ≤ taken.places.length + left := by
  fun_induction take left taken signs with
  | case1 =>
      cases h
      exact Nat.le_add_right _ _
  | case2 _ _ _ _ ih | case3 _ _ _ _ ih | case4 _ _ _ _ _ ih =>
      have hle := ih h
      simp only [List.length_append, List.length_singleton] at hle
      omega
  | case5 _ _ _ ih | case6 _ _ _ _ ih | case7 _ _ _ _ ih => exact ih h
  | case8 => cases h
  | case9 left taken rule spelling attached rest taken'' htaken ih =>
      rw [← places_of_takeOption htaken]
      exact ih h

/-- Whether an argument is a text by its look. -/
def Sign.isText : Sign → Bool
  | text _ => true
  | _ => false

/-- Without extras, every text has taken a place. -/
theorem length_places_of_take (h : take left taken signs = .ok taken')
    (hextras : taken'.extras = []) :
    taken'.places.length = taken.places.length + signs.countP Sign.isText := by
  have hnot {left : Nat} {places : List (Option Text)}
      {options : List (Text × Option Text)} {extras : List Text} {text : Text}
      {rest : List Sign} (h : take left ⟨places, options, extras ++ [text]⟩ rest = .ok taken') :
      False := by
    simpa using extras_eq_nil_of_take h hextras
  fun_induction take left taken signs with
  | case1 =>
      cases h
      rfl
  | case2 _ _ _ _ ih | case3 _ _ _ _ ih | case4 _ _ _ _ _ ih =>
      simp [ih h, List.countP_cons, Sign.isText, Nat.add_assoc, Nat.add_comm 1]
  | case5 | case6 | case7 => exact (hnot h).elim
  | case8 => cases h
  | case9 left taken rule spelling attached rest taken'' htaken ih =>
      rw [ih h, places_of_takeOption htaken, List.countP_cons_of_neg (by simp [Sign.isText])]

end Take

end RecordRegistry.CommandLine
