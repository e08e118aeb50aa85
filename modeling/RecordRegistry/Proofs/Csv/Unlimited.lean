import Mathlib.Data.List.Basic
import RecordRegistry.Proofs.Csv

/-!
# Cells of any size

A text is refused for the size of a cell only. Read without counting, every text has records, and
the reader gives them as long as no cell in them has too many characters.
-/

namespace RecordRegistry.Csv

namespace Progress

/-- A step that forgets how many characters the open cell has, so that it is never refused. -/
def advance (p : Progress) (c : CodePoint) : Progress :=
  match ({ p with size := 0 } : Progress).step c with
  | .ok next => next
  | .error _ => p

/-- A character that no quotation marks protect goes on with a cell, ends one, or ends a line. -/
theorem outside_cases (c : CodePoint) :
    (c ≠ .char '\n' ∧ ∀ p : Progress, p.outside c = p.push .bare c) ∨
      (∀ p : Progress, p.outside c = .ok p.endCell) ∨
      (∀ p : Progress, p.outside c = .ok p.endLine) := by
  by_cases hcomma : c = .char ','
  · exact .inr (.inl fun p => by rw [outside, if_pos hcomma])
  · by_cases hend : c = .char '\n' ∨ c = .char '\r'
    · exact .inr (.inr fun p => by rw [outside, if_neg hcomma, if_pos hend])
    · exact .inl ⟨fun hc => hend (.inl hc), fun p => by
        rw [outside, if_neg hcomma, if_neg hend]⟩

/-- What a character does depends on the mode only: a quotation mark changes the mode, and any
other character goes on with the cell, ends it, or ends the line. -/
theorem step_cases (mode : Mode) (c : CodePoint) :
    (∃ next, (next = .quoted ∧ (mode = .line ∨ mode = .cell) ∨ next = .closed) ∧
        ∀ p : Progress, p.mode = mode → p.step c = .ok { p with mode := next }) ∨
      (∃ next, (next = .bare ∨ next = .quoted) ∧ (c = .char '\n' → mode = .quoted) ∧
        ∀ p : Progress, p.mode = mode → p.step c = p.push next c) ∨
      (∀ p : Progress, p.mode = mode → p.step c = .ok p.endCell) ∨
      (∀ p : Progress, p.mode = mode → p.step c = .ok p.endLine) := by
  have houtside (h : ∀ p : Progress, p.mode = mode → p.step c = p.outside c) :
      (∃ next, (next = .bare ∨ next = .quoted) ∧ (c = .char '\n' → mode = .quoted) ∧
          ∀ p : Progress, p.mode = mode → p.step c = p.push next c) ∨
        (∀ p : Progress, p.mode = mode → p.step c = .ok p.endCell) ∨
        (∀ p : Progress, p.mode = mode → p.step c = .ok p.endLine) := by
    rcases outside_cases c with ⟨hne, hc⟩ | hc | hc
    · exact .inl ⟨.bare, .inl rfl, fun h => absurd h hne, fun p hp => (h p hp).trans (hc p)⟩
    · exact .inr (.inl fun p hp => (h p hp).trans (hc p))
    · exact .inr (.inr fun p hp => (h p hp).trans (hc p))
  by_cases hmark : c = .char '\x22'
  · subst hmark
    cases mode with
    | line | cell =>
        exact .inl ⟨.quoted, .inl ⟨rfl, by simp⟩, fun p hp => by rw [step, hp]; rfl⟩
    | quoted =>
        exact .inl ⟨.closed, .inr rfl, fun p hp => by rw [step, hp]; rfl⟩
    | closed =>
        exact .inr (.inl ⟨.quoted, .inr rfl, by simp, fun p hp => by rw [step, hp]; rfl⟩)
    | bare => exact .inr (houtside fun p hp => by rw [step, hp])
  · cases mode with
    | quoted =>
        exact .inr (.inl ⟨.quoted, .inr rfl, fun _ => rfl, fun p hp => by
          rw [step, hp]
          exact if_neg hmark⟩)
    | bare => exact .inr (houtside fun p hp => by rw [step, hp])
    | line | cell | closed =>
        exact .inr (houtside fun p hp => by
          rw [step, hp]
          exact if_neg hmark)

/-- What a character does when its cell may have any size, beside what it does in a step. -/
theorem advance_cases (mode : Mode) (c : CodePoint) :
    (∃ next, (next = .quoted ∧ (mode = .line ∨ mode = .cell) ∨ next = .closed) ∧
        ∀ p : Progress, p.mode = mode → p.step c = .ok { p with mode := next } ∧
          p.advance c = { p with mode := next, size := 0 }) ∨
      (∃ next, (next = .bare ∨ next = .quoted) ∧ (c = .char '\n' → mode = .quoted) ∧
        ∀ p : Progress, p.mode = mode → p.step c = p.push next c ∧
          p.advance c = { p with mode := next, text := c :: p.text, size := 1 }) ∨
      (∀ p : Progress, p.mode = mode → p.step c = .ok p.endCell ∧ p.advance c = p.endCell) ∨
      (∀ p : Progress, p.mode = mode → p.step c = .ok p.endLine ∧ p.advance c = p.endLine) := by
  rcases step_cases mode c with ⟨next, hnext, hc⟩ | ⟨next, hnext, hfeed, hc⟩ | hc | hc
  · refine .inl ⟨next, hnext, fun p hp => ⟨hc p hp, ?_⟩⟩
    rw [advance, hc { p with size := 0 } hp]
  · refine .inr (.inl ⟨next, hnext, hfeed, fun p hp => ⟨hc p hp, ?_⟩⟩)
    rw [advance, hc { p with size := 0 } hp, push_of_lt (show 0 < cellLimit by decide)]
  · refine .inr (.inr (.inl fun p hp => ⟨hc p hp, ?_⟩))
    rw [advance, hc { p with size := 0 } hp]
    rfl
  · refine .inr (.inr (.inr fun p hp => ⟨hc p hp, ?_⟩))
    rw [advance, hc { p with size := 0 } hp, endLine, endLine]
    rfl

/-- Before a cell nothing of it has been read, and before a line nothing of its record. -/
structure Settled (p : Progress) : Prop where
  text_eq_nil : p.mode = .line ∨ p.mode = .cell → p.text = []
  cells_eq_nil : p.mode = .line → p.cells = []

theorem settled_start : start.Settled := ⟨fun _ => rfl, fun _ => rfl⟩

theorem settled_endLine (p : Progress) : p.endLine.Settled := by
  rw [endLine]
  split <;> exact ⟨fun _ => rfl, fun _ => rfl⟩

theorem settled_advance (p : Progress) (c : CodePoint) : (p.advance c).Settled := by
  rcases advance_cases p.mode c with ⟨next, hnext, hc⟩ | ⟨next, hnext, -, hc⟩ | hc | hc
  · rw [(hc p rfl).2]
    rcases hnext with ⟨rfl, -⟩ | rfl <;> exact ⟨by simp, by simp⟩
  · rw [(hc p rfl).2]
    rcases hnext with rfl | rfl <;> exact ⟨by simp, by simp⟩
  · rw [(hc p rfl).2]
    exact ⟨fun _ => rfl, nofun⟩
  · rw [(hc p rfl).2]
    exact settled_endLine p

/-- No cell that has been read, the open one included, has too many characters. -/
structure Within (p : Progress) : Prop where
  text : p.text.length ≤ cellLimit
  cells : ∀ cell ∈ p.cells, cell.length ≤ cellLimit
  records : ∀ record ∈ p.records, ∀ cell ∈ record, cell.length ≤ cellLimit

theorem within_endCell_iff (p : Progress) : p.endCell.Within ↔ p.Within := by
  constructor
  · rintro ⟨-, hcells, hrecords⟩
    simp only [endCell, List.mem_cons, forall_eq_or_imp, Text.length_ofList,
      List.length_reverse] at hcells
    exact ⟨hcells.1, hcells.2, hrecords⟩
  · rintro ⟨htext, hcells, hrecords⟩
    refine ⟨Nat.zero_le _, ?_, hrecords⟩
    simp only [endCell, List.mem_cons, forall_eq_or_imp, Text.length_ofList, List.length_reverse]
    exact ⟨htext, hcells⟩

theorem within_endRecord_iff {p : Progress} (htext : p.text = []) :
    p.endRecord.Within ↔ p.Within := by
  constructor
  · rintro ⟨-, -, hrecords⟩
    simp only [endRecord, List.mem_cons, forall_eq_or_imp, List.mem_reverse] at hrecords
    exact ⟨by simp [htext], hrecords.1, hrecords.2⟩
  · rintro ⟨-, hcells, hrecords⟩
    refine ⟨Nat.zero_le _, List.forall_mem_nil _, ?_⟩
    simp only [endRecord, List.mem_cons, forall_eq_or_imp, List.mem_reverse]
    exact ⟨hcells, hrecords⟩

theorem within_endLine_iff {p : Progress} (h : p.Settled) : p.endLine.Within ↔ p.Within := by
  rw [endLine]
  split
  · next hline => exact within_endRecord_iff (h.text_eq_nil (.inl hline))
  · rw [within_endRecord_iff rfl, within_endCell_iff]

/-- A step makes no cell longer but the open one, and none shorter. -/
theorem within_advance_iff {p : Progress} (h : p.Settled) (c : CodePoint) :
    (p.advance c).Within ↔ p.Within ∧ (p.advance c).text.length ≤ cellLimit := by
  rcases advance_cases p.mode c with ⟨next, -, hc⟩ | ⟨next, -, -, hc⟩ | hc | hc
  · rw [(hc p rfl).2]
    exact ⟨fun hp => ⟨⟨hp.1, hp.2, hp.3⟩, hp.1⟩, fun hp => ⟨hp.2, hp.1.2, hp.1.3⟩⟩
  · rw [(hc p rfl).2]
    constructor
    · intro hp
      exact ⟨⟨Nat.le_of_succ_le hp.1, hp.2, hp.3⟩, hp.1⟩
    · intro hp
      exact ⟨hp.2, hp.1.2, hp.1.3⟩
  · rw [(hc p rfl).2, within_endCell_iff]
    exact (and_iff_left (Nat.zero_le _)).symm
  · rw [(hc p rfl).2, within_endLine_iff h]
    exact (and_iff_left_of_imp fun hp => ((within_endLine_iff h).mpr hp).text).symm

/-- Counts the characters of the open cell. -/
def counted (p : Progress) : Progress := { p with size := p.text.length }

/-- A step is refused exactly when it would make the open cell too long. -/
theorem step_counted {p : Progress} (htext : p.text.length ≤ cellLimit) (c : CodePoint) :
    p.counted.step c = if (p.advance c).text.length ≤ cellLimit then .ok (p.advance c).counted
      else .error ⟨⟩ := by
  rcases advance_cases p.mode c with ⟨next, -, hc⟩ | ⟨next, -, -, hc⟩ | hc | hc
  · rw [(hc p.counted rfl).1, (hc p rfl).2, if_pos htext]
    rfl
  · rw [(hc p.counted rfl).1, (hc p rfl).2]
    rfl
  · rw [(hc p.counted rfl).1, (hc p rfl).2]
    rfl
  · rw [(hc p.counted rfl).1, (hc p rfl).2, endLine, endLine, counted]
    split <;> rfl

theorem settled_foldl {p : Progress} (h : p.Settled) (text : List CodePoint) :
    (text.foldl advance p).Settled := by
  induction text generalizing p with
  | nil => exact h
  | cons c text ih => exact ih (settled_advance p c)

/-- No cell becomes shorter. -/
theorem within_of_within_foldl {p : Progress} (h : p.Settled) {text : List CodePoint}
    (hp : (text.foldl advance p).Within) : p.Within := by
  induction text generalizing p with
  | nil => exact hp
  | cons c text ih => exact ((within_advance_iff h c).mp (ih (settled_advance p c) hp)).1

/-- As long as no cell is too long, a text is read as it is without a limit. -/
theorem scan_counted_of_within {p : Progress} (h : p.Settled) (text : List CodePoint)
    (hlater : (text.foldl advance p).Within) :
    p.counted.scan text = .ok (text.foldl advance p).counted := by
  induction text generalizing p with
  | nil => rfl
  | cons c text ih =>
      have hp : p.Within := within_of_within_foldl h hlater
      have hnext : (p.advance c).Within := within_of_within_foldl (settled_advance p c) hlater
      rw [scan, step_counted hp.text c, if_pos hnext.text]
      exact ih (settled_advance p c) hlater

/-- A text with a cell that is too long is refused. -/
theorem scan_counted_of_not_within {p : Progress} (h : p.Settled) (hp : p.Within)
    (text : List CodePoint) (hlater : ¬ (text.foldl advance p).Within) :
    p.counted.scan text = .error ⟨⟩ := by
  induction text generalizing p with
  | nil => exact absurd hp hlater
  | cons c text ih =>
      rw [scan, step_counted hp.text c]
      by_cases hc : (p.advance c).text.length ≤ cellLimit
      · rw [if_pos hc]
        exact ih (settled_advance p c) ((within_advance_iff h c).mpr ⟨hp, hc⟩) hlater
      · rw [if_neg hc]

/-- The end of the text closes the open cell, so that all cells are in the records then. -/
theorem within_iff_finish {p : Progress} (h : p.Settled) :
    p.Within ↔ ∀ record ∈ p.finish, ∀ cell ∈ record, cell.length ≤ cellLimit := by
  have hrecords (q : Progress) (htext : q.text = []) (hcells : q.cells = []) :
      q.Within ↔ ∀ record ∈ q.records.reverse, ∀ cell ∈ record, cell.length ≤ cellLimit := by
    simp only [List.mem_reverse]
    exact ⟨Within.records, fun hq => ⟨by simp [htext], by simp [hcells], hq⟩⟩
  rw [finish]
  split
  · next hline => exact hrecords p (h.text_eq_nil (.inl hline)) (h.cells_eq_nil hline)
  · next hline =>
    have hend : p.endLine.text = [] ∧ p.endLine.cells = [] := by
      rw [endLine, if_neg hline]
      exact ⟨rfl, rfl⟩
    rw [← within_endLine_iff h, hrecords p.endLine hend.1 hend.2]

theorem advance_of_not_special {p : Progress} {c : CodePoint} (hc : isSpecial c = false)
    (hmode : p.mode = .line ∨ p.mode = .cell ∨ p.mode = .bare) :
    p.advance c = { p with mode := .bare, text := c :: p.text, size := 1 } := by
  rw [advance, step_of_not_special (p := { p with size := 0 }) hc hmode,
    push_of_lt (show 0 < cellLimit by decide)]

/-- What has no effect of its own is added to the open cell, which the end of the text closes. -/
theorem finish_foldl_bare {p : Progress} (hmode : p.mode = .bare) {text : List CodePoint}
    (htext : ∀ c ∈ text, isSpecial c = false) :
    (text.foldl advance p).finish = { p with text := text.reverse ++ p.text }.finish := by
  induction text generalizing p with
  | nil => rfl
  | cons c text ih =>
      rw [List.forall_mem_cons] at htext
      rw [List.foldl_cons, advance_of_not_special htext.1 (.inr (.inr hmode)), ih rfl htext.2]
      simp [finish, endLine, endCell, endRecord, hmode]

end Progress

/-- The records of a text when a cell may have any size, blank lines included. -/
def unlimited (text : List CodePoint) : List (List Text) :=
  (text.foldl Progress.advance Progress.start).finish

/-- A text without marks, commas and line ends is one cell. -/
theorem unlimited_bare {text : List CodePoint} (hne : text ≠ [])
    (htext : ∀ c ∈ text, isSpecial c = false) : unlimited text = [[Text.ofList text]] := by
  obtain ⟨c, rest, rfl⟩ := List.exists_cons_of_ne_nil hne
  rw [List.forall_mem_cons] at htext
  rw [unlimited, List.foldl_cons, Progress.advance_of_not_special htext.1 (.inl rfl),
    Progress.finish_foldl_bare rfl htext.2]
  simp [Progress.finish, Progress.endLine, Progress.endCell, Progress.endRecord, Progress.start]

/-- Whether all cells of records are as short as the reader wants them. -/
def Fitting (records : List (List Text)) : Prop :=
  ∀ record ∈ records, ∀ cell ∈ record, cell.length ≤ cellLimit

instance (records : List (List Text)) : Decidable (Fitting records) :=
  inferInstanceAs (Decidable (∀ record ∈ records, ∀ cell ∈ record, cell.length ≤ cellLimit))

/-- A text has its records unless a cell in them is too long. -/
theorem records_eq_ite (text : List CodePoint) :
    records text = if Fitting (unlimited text) then .ok (unlimited text) else .error ⟨⟩ := by
  have hstart : Progress.start.Within := ⟨Nat.zero_le _, nofun, nofun⟩
  have hfitting := Progress.within_iff_finish
    (Progress.settled_foldl Progress.settled_start text)
  rw [records]
  by_cases h : Fitting (unlimited text)
  · rw [if_pos h]
    have hscan := Progress.scan_counted_of_within Progress.settled_start text (hfitting.mpr h)
    rw [show Progress.start = Progress.start.counted from rfl, hscan]
    rfl
  · rw [if_neg h]
    have hscan := Progress.scan_counted_of_not_within Progress.settled_start hstart text
      (mt hfitting.mp h)
    rw [show Progress.start = Progress.start.counted from rfl, hscan]
    rfl

end RecordRegistry.Csv

namespace RecordRegistry.Rows

/-- The rows of records in which cells may have any size, unless one has too many characters. -/
def ofRecords (records : List (List Text)) : Except RowsError (List Json.Record) :=
  if Csv.Fitting records then
    .ok ((Csv.rows records).map fun row => row.map fun entry => (entry.1, .string entry.2))
  else .error (.csv ⟨⟩)

theorem ofCsv_eq_ofRecords (text : List CodePoint) :
    ofCsv text = ofRecords (Csv.unlimited text) := by
  rw [ofCsv, Csv.read, Csv.records_eq_ite, ofRecords]
  by_cases h : Csv.Fitting (Csv.unlimited text)
  · simp only [if_pos h]
    rfl
  · simp only [if_neg h]
    rfl

end RecordRegistry.Rows
