import RecordRegistry.Proofs.Csv.Unlimited
import RecordRegistry.Proofs.Text.LineEnds

/-!
# Line ends in a table

Unifying the line ends of a text changes nothing between its records, where each of the line ends
has the same effect. Inside of a cell between quotation marks it changes the cell, in the way in
which it changes a text.
-/

namespace RecordRegistry.Csv

/-- A cell whose line ends are unified. -/
def unified (cell : Text) : Text := Text.ofList (Text.unifyLineEnds cell.toList)

namespace Progress

theorem advance_lineEnd {p : Progress} (hmode : p.mode ≠ .quoted) {c : CodePoint}
    (hc : c = .char '\n' ∨ c = .char '\r') : p.advance c = p.endLine := by
  rw [advance, step_lineEnd (p := { p with size := 0 }) hmode hc, endLine, endLine]
  rfl

theorem advance_quoted {p : Progress} (hmode : p.mode = .quoted) {c : CodePoint}
    (hc : c ≠ .char '\x22') :
    p.advance c = { p with mode := .quoted, text := c :: p.text, size := 1 } := by
  obtain ⟨mode, text, size, cells, records⟩ := p
  subst hmode
  simp [advance, step, hc, push, cellLimit]

theorem mode_endLine (p : Progress) : p.endLine.mode = .line := by
  rw [endLine]
  split <;> rfl

/-- Only a carriage return opens a cell in the middle of which a line end may be cut. -/
theorem head?_text_advance {p : Progress} (h : p.Settled) {c : CodePoint} (hc : c ≠ .char '\r')
    (hmode : (p.advance c).mode = .quoted) : (p.advance c).text.head? ≠ some (.char '\r') := by
  rcases advance_cases p.mode c with ⟨next, hnext, hp⟩ | ⟨next, -, -, hp⟩ | hp | hp
  · rw [(hp p rfl).2] at hmode ⊢
    rcases hnext with ⟨-, hstart⟩ | rfl
    · simp [h.text_eq_nil hstart]
    · cases hmode
  · rw [(hp p rfl).2]
    simpa using hc
  · rw [(hp p rfl).2] at hmode
    cases hmode
  · rw [(hp p rfl).2, mode_endLine] at hmode
    cases hmode

/-- One reading is where the other one is, but for unified line ends in all cells. Blank lines count
only where the first record is one. -/
structure Unifies (p q : Progress) : Prop where
  mode : q.mode = p.mode
  text : q.text.reverse = Text.unifyLineEnds p.text.reverse
  cells : q.cells = p.cells.map unified
  records : q.records.filter (· ≠ []) = (p.records.filter (· ≠ [])).map (List.map unified)
  first : q.records.getLast? = p.records.getLast?.map (List.map unified)

theorem unifies_start : Unifies start start := ⟨rfl, rfl, rfl, rfl, rfl⟩

variable {p q : Progress}

/-- Characters are added to the open cell without cutting a line end. -/
theorem Unifies.push (h : Unifies p q) (mode : Mode) (size : Nat) (chars : List CodePoint)
    (hcut : p.text.head? = some (.char '\r') → chars.head? ≠ some (.char '\n')) :
    Unifies { p with mode := mode, text := chars.reverse ++ p.text, size := size }
      { q with
        mode := mode, text := (Text.unifyLineEnds chars).reverse ++ q.text, size := size } := by
  refine ⟨rfl, ?_, h.cells, h.records, h.first⟩
  rw [← List.getLast?_reverse] at hcut
  simp [h.text, Text.unifyLineEnds_append hcut]

theorem Unifies.endCell (h : Unifies p q) : Unifies p.endCell q.endCell := by
  refine ⟨rfl, rfl, ?_, h.records, h.first⟩
  simp [Progress.endCell, h.text, h.cells, unified]

theorem Unifies.endRecord (h : Unifies p q) : Unifies p.endRecord q.endRecord := by
  have hrecord : q.cells.reverse = p.cells.reverse.map unified := by
    rw [h.cells, List.map_reverse]
  refine ⟨rfl, rfl, rfl, ?_, ?_⟩
  · have hrecords := h.records
    simp only [ne_eq] at hrecords
    simp only [Progress.endRecord, List.filter_cons, hrecord, ne_eq, List.map_eq_nil_iff]
    split
    · rw [hrecords, List.map_cons]
    · exact hrecords
  · rw [Progress.endRecord, Progress.endRecord, List.getLast?_cons, List.getLast?_cons, h.first,
      hrecord]
    cases p.records.getLast? <;> rfl

theorem Unifies.endLine (h : Unifies p q) : Unifies p.endLine q.endLine := by
  rw [Progress.endLine, Progress.endLine, h.mode]
  split
  · exact h.endRecord
  · exact h.endCell.endRecord

/-- A blank line behind another line changes nothing. -/
theorem Unifies.blankLine (h : Unifies p q) (hp : p.Settled) (hmode : p.mode = .line)
    (hrecords : p.records ≠ []) : Unifies p.endLine q := by
  have hend : p.endLine = ⟨.line, [], 0, [], [] :: p.records⟩ := by
    rw [Progress.endLine, if_pos hmode, Progress.endRecord, hp.cells_eq_nil hmode]
    rfl
  have htext := h.text
  have hcells := h.cells
  rw [hp.text_eq_nil (.inl hmode)] at htext
  rw [hp.cells_eq_nil hmode] at hcells
  obtain ⟨record, records, hcons⟩ := List.exists_cons_of_ne_nil hrecords
  rw [hend]
  refine ⟨h.mode.trans hmode, htext, hcells, h.records, ?_⟩
  rw [h.first, hcons, List.getLast?_cons_cons]

theorem records_endLine_ne_nil (p : Progress) : p.endLine.records ≠ [] := by
  rw [Progress.endLine]
  split <;> exact List.cons_ne_nil _ _

/-- A character that is no carriage return has the same effect in both texts. -/
theorem Unifies.advance (h : Unifies p q) {c : CodePoint} (hc : c ≠ .char '\r')
    (hcut : p.mode = .quoted → p.text.head? = some (.char '\r') → c ≠ .char '\n') :
    Unifies (p.advance c) (q.advance c) := by
  rcases advance_cases p.mode c with ⟨next, -, hp⟩ | ⟨next, -, hfeed, hp⟩ | hp | hp
  · rw [(hp p rfl).2, (hp q h.mode).2]
    exact ⟨rfl, h.text, h.cells, h.records, h.first⟩
  · rw [(hp p rfl).2, (hp q h.mode).2]
    have hpush := h.push next 1 [c] fun hhead hfirst =>
      hcut (hfeed (Option.some.inj hfirst)) hhead (Option.some.inj hfirst)
    rwa [Text.unifyLineEnds_other hc] at hpush
  · rw [(hp p rfl).2, (hp q h.mode).2]
    exact h.endCell
  · rw [(hp p rfl).2, (hp q h.mode).2]
    exact h.endLine

/-- A carriage return has the effect of a line feed. -/
theorem Unifies.advance_return (h : Unifies p q) :
    Unifies (p.advance '\r') (q.advance '\n') := by
  by_cases hmode : p.mode = .quoted
  · rw [advance_quoted hmode (by decide), advance_quoted (h.mode.trans hmode) (by decide)]
    exact h.push .quoted 1 ['\r'] fun _ => by decide
  · rw [advance_lineEnd hmode (.inr rfl), advance_lineEnd (h.mode ▸ hmode) (.inl rfl)]
    exact h.endLine

/-- Both characters of a line end have the effect of one line feed. -/
theorem Unifies.advance_both (h : Unifies p q) :
    Unifies ((p.advance '\r').advance '\n') (q.advance '\n') := by
  by_cases hmode : p.mode = .quoted
  · rw [advance_quoted hmode (by decide), advance_quoted rfl (by decide),
      advance_quoted (h.mode.trans hmode) (by decide)]
    exact h.push .quoted 1 ['\r', '\n'] fun _ => by decide
  · have hline : p.endLine.mode ≠ .quoted := by
      rw [mode_endLine]
      decide
    rw [advance_lineEnd hmode (.inr rfl), advance_lineEnd hline (.inl rfl),
      advance_lineEnd (h.mode ▸ hmode) (.inl rfl)]
    exact h.endLine.blankLine (settled_endLine p) (mode_endLine p) (records_endLine_ne_nil p)

/-- The unified text is read as the text is. -/
theorem Unifies.foldl (h : Unifies p q) (hp : p.Settled) {text : List CodePoint}
    (hcut : p.mode = .quoted → p.text.head? = some (.char '\r') → text.head? ≠ some (.char '\n')) :
    Unifies (text.foldl Progress.advance p)
      ((Text.unifyLineEnds text).foldl Progress.advance q) := by
  induction text using Text.lineEndInduction generalizing p q with
  | nil => exact h
  | both rest ih =>
      rw [Text.unifyLineEnds_both]
      refine ih h.advance_both (settled_advance _ _) ?_
      intro hmode hhead
      exact absurd hhead (head?_text_advance (settled_advance p '\r') (by decide) hmode)
  | carriageReturn rest hrest ih =>
      rw [Text.unifyLineEnds_return hrest]
      exact ih h.advance_return (settled_advance _ _) fun _ _ => hrest
  | other c rest hc ih =>
      rw [Text.unifyLineEnds_other hc]
      refine ih (h.advance hc fun hmode hhead hfeed => hcut hmode hhead (congrArg some hfeed))
        (settled_advance _ _) ?_
      intro hmode hhead
      exact absurd hhead (head?_text_advance hp hc hmode)

/-- The unified text has the records of the text with their cells unified, but for blank lines. -/
theorem Unifies.finish (h : Unifies p q) :
    q.finish.filter (· ≠ []) = (p.finish.filter (· ≠ [])).map (List.map unified) ∧
      q.finish.head? = p.finish.head?.map (List.map unified) := by
  have hreverse {p q : Progress} (h : Unifies p q) :
      q.records.reverse.filter (· ≠ []) =
          (p.records.reverse.filter (· ≠ [])).map (List.map unified) ∧
        q.records.reverse.head? = p.records.reverse.head?.map (List.map unified) := by
    rw [List.filter_reverse, List.filter_reverse, h.records, List.map_reverse, List.head?_reverse,
      List.head?_reverse, h.first]
    exact ⟨rfl, rfl⟩
  rw [Progress.finish, Progress.finish, h.mode]
  split
  · exact hreverse h
  · exact hreverse h.endLine

end Progress

theorem unlimited_unifyLineEnds (text : List CodePoint) :
    (unlimited (Text.unifyLineEnds text)).filter (· ≠ []) =
        ((unlimited text).filter (· ≠ [])).map (List.map unified) ∧
      (unlimited (Text.unifyLineEnds text)).head? =
        (unlimited text).head?.map (List.map unified) :=
  (Progress.unifies_start.foldl Progress.settled_start nofun).finish

/-- Rows depend on the first record and on the others that are not blank. -/
theorem rows_congr {first second : List (List Text)} (hhead : first.head? = second.head?)
    (hfilter : first.filter (· ≠ []) = second.filter (· ≠ [])) : rows first = rows second := by
  cases first with
  | nil =>
      rw [List.head?_eq_none_iff.mp hhead.symm]
  | cons header records =>
      obtain ⟨others, rfl⟩ := List.head?_eq_some_iff.mp hhead.symm
      rw [rows, rows]
      have hothers : records.filter (· ≠ []) = others.filter (· ≠ []) := by
        by_cases hheader : header = []
        · simpa [hheader] using hfilter
        · simpa [hheader] using hfilter
      rw [hothers]

theorem fitting_filter_iff (records : List (List Text)) :
    Fitting (records.filter (· ≠ [])) ↔ Fitting records := by
  constructor
  · intro h record hrecord cell hcell
    exact h record (List.mem_filter.mpr ⟨hrecord, by simpa using List.ne_nil_of_mem hcell⟩) cell
      hcell
  · exact fun h record hrecord => h record (List.mem_of_mem_filter hrecord)

end RecordRegistry.Csv

namespace RecordRegistry.Rows

theorem ofRecords_congr {first second : List (List Text)} (hhead : first.head? = second.head?)
    (hfilter : first.filter (· ≠ []) = second.filter (· ≠ [])) :
    ofRecords first = ofRecords second := by
  have hfitting : Csv.Fitting first ↔ Csv.Fitting second := by
    rw [← Csv.fitting_filter_iff, hfilter, Csv.fitting_filter_iff]
  rw [ofRecords, ofRecords, Csv.rows_congr hhead hfilter]
  by_cases h : Csv.Fitting second
  · rw [if_pos h, if_pos (hfitting.mpr h)]
  · rw [if_neg h, if_neg (mt hfitting.mp h)]

/-- The rows of a text whose line ends are unified are those of its records with their cells
unified. -/
theorem ofCsv_unifyLineEnds (text : List CodePoint) :
    ofCsv (Text.unifyLineEnds text) =
      ofRecords ((Csv.unlimited text).map (List.map Csv.unified)) := by
  obtain ⟨hfilter, hhead⟩ := Csv.unlimited_unifyLineEnds text
  rw [ofCsv_eq_ofRecords]
  refine ofRecords_congr ?_ ?_
  · rw [hhead, List.head?_map]
  · rw [hfilter, List.filter_map]
    simp [Function.comp_def]

end RecordRegistry.Rows
