import Mathlib.Data.List.Basic
import RecordRegistry.Rows

/-!
# Written tables are read back

A table can be written in many ways: cells with or without quotation marks, three ends of a line,
and blank lines behind any record. `TableText` lists them all, and the reader gives the same rows
for each of them. The reading goes cell by cell, so that what one written form leaves behind is what
the next one starts from.
-/

namespace RecordRegistry.Csv

/-- The characters that a cell without quotation marks cannot hold. -/
def isSpecial (c : CodePoint) : Bool :=
  c = .char ',' || c = .char '\x22' || c = .char '\n' || c = .char '\r'

/-- A character between quotation marks. A mark is doubled. -/
def doubled (c : CodePoint) : List CodePoint := if c = .char '\x22' then ['\x22', '\x22'] else [c]

/-- The written forms of a cell. -/
inductive CellText (cell : Text) : List CodePoint → Prop
  | bare (hcell : ∀ c ∈ cell.toList, isSpecial c = false) : CellText cell cell.toList
  | quoted : CellText cell (.char '\x22' :: (cell.toList.flatMap doubled ++ [.char '\x22']))

/-- The written forms of the cells of a record, apart by commas. -/
inductive CellsText : List Text → List CodePoint → Prop
  | last {cell : Text} {text : List CodePoint} (hcell : CellText cell text) : CellsText [cell] text
  | cons {cell : Text} {text : List CodePoint} {cells : List Text} {rest : List CodePoint}
      (hcell : CellText cell text) (hcells : CellsText cells rest) :
      CellsText (cell :: cells) (text ++ .char ',' :: rest)

/-- The ends of a line. -/
inductive LineEnd where
  | lineFeed
  | carriageReturn
  | both
deriving DecidableEq, Repr

/-- The characters of an end of a line. -/
def LineEnd.text : LineEnd → List CodePoint
  | lineFeed => ['\n']
  | carriageReturn => ['\r']
  | both => ['\r', '\n']

/-- The written forms of records. A record of one empty cell stands between marks, because no record
is a blank line. Blank lines may follow every line that has an end, and the last record may lack
one. -/
inductive TableText : List (List Text) → List CodePoint → Prop
  | nil : TableText [] []
  | unended {record : List Text} {text : List CodePoint} (hrecord : CellsText record text)
      (htext : text ≠ []) : TableText [record] text
  | cons {record : List Text} {text : List CodePoint} {records : List (List Text)}
      {rest : List CodePoint} (hrecord : CellsText record text) (htext : text ≠ [])
      (lineEnd : LineEnd) (blanks : List LineEnd) (hrest : TableText records rest) :
      TableText (record :: records)
        (text ++ (lineEnd.text ++ blanks.flatMap LineEnd.text ++ rest))

namespace Progress

variable {mode : Mode} {size : Nat} (read : List CodePoint) (done : List Text)
  (records : List (List Text))

/-- Before the first character of a line. -/
def atLine (records : List (List Text)) : Progress := ⟨.line, [], 0, [], records⟩

theorem push_of_lt {p : Progress} (h : p.size < cellLimit) (mode : Mode) (c : CodePoint) :
    p.push mode c = .ok { p with mode := mode, text := c :: p.text, size := p.size + 1 } := by
  rw [push, if_pos h]

theorem step_of_not_special {p : Progress} {c : CodePoint} (hc : isSpecial c = false)
    (hmode : p.mode = .line ∨ p.mode = .cell ∨ p.mode = .bare) : p.step c = p.push .bare c := by
  simp only [isSpecial, Bool.or_eq_false_iff, decide_eq_false_iff_not] at hc
  rcases hmode with hmode | hmode | hmode <;> simp [step, outside, hmode, hc]

theorem step_comma {p : Progress} (hmode : p.mode ≠ .quoted) : p.step ',' = .ok p.endCell := by
  obtain ⟨mode, read, size, done, records⟩ := p
  cases mode <;> first | rfl | exact absurd rfl hmode

theorem step_lineEnd {p : Progress} (hmode : p.mode ≠ .quoted) {c : CodePoint}
    (hc : c = .char '\n' ∨ c = .char '\r') : p.step c = .ok p.endLine := by
  obtain ⟨mode, read, size, done, records⟩ := p
  rcases hc with rfl | rfl <;> cases mode <;> first | rfl | exact absurd rfl hmode

/-- A cell without quotation marks goes on. -/
theorem scan_bare {chars : List CodePoint} (hchars : ∀ c ∈ chars, isSpecial c = false)
    (hsize : size + chars.length ≤ cellLimit) :
    scan ⟨.bare, read, size, done, records⟩ chars =
      .ok ⟨.bare, chars.reverse ++ read, size + chars.length, done, records⟩ := by
  induction chars generalizing read size with
  | nil => rfl
  | cons c chars ih =>
      rw [List.length_cons] at hsize
      have hc := hchars c List.mem_cons_self
      have hrest := ih (c :: read) (fun c hc => hchars c (List.mem_cons_of_mem _ hc))
        (show size + 1 + chars.length ≤ cellLimit by omega)
      rw [scan, step_of_not_special hc (Or.inr (Or.inr rfl)), push_of_lt (by simp only; omega)]
      simp [hrest, Nat.add_assoc, Nat.add_comm 1]

/-- A character between quotation marks is one of the cell, in whatever way it is written. -/
theorem scan_doubled_char (c : CodePoint) (hsize : size < cellLimit) :
    scan ⟨.quoted, read, size, done, records⟩ (doubled c) =
      .ok ⟨.quoted, c :: read, size + 1, done, records⟩ := by
  rw [doubled]
  split
  · next hc => simp [scan, step, push, hsize, hc]
  · next hc => simp [scan, step, push, hsize, hc]

/-- A cell between quotation marks goes on. -/
theorem scan_doubled (chars : List CodePoint) (hsize : size + chars.length ≤ cellLimit) :
    scan ⟨.quoted, read, size, done, records⟩ (chars.flatMap doubled) =
      .ok ⟨.quoted, chars.reverse ++ read, size + chars.length, done, records⟩ := by
  induction chars generalizing read size with
  | nil => rfl
  | cons c chars ih =>
      rw [List.length_cons] at hsize
      have hrest := ih (c :: read) (show size + 1 + chars.length ≤ cellLimit by omega)
      rw [List.flatMap_cons, scan_append, scan_doubled_char read done records c (by omega)]
      simp [hrest, Nat.add_assoc, Nat.add_comm 1]

/-- Behind a written cell its characters are known, and the next comma or end of a line closes it.
Only an empty cell at the start of a line leaves no trace of itself. -/
theorem scan_cellText {cell : Text} {text : List CodePoint} (h : CellText cell text)
    (hsize : cell.length ≤ cellLimit) (hmode : mode = .line ∨ mode = .cell) :
    ∃ mode', scan ⟨mode, [], 0, done, records⟩ text =
        .ok ⟨mode', cell.toList.reverse, cell.length, done, records⟩ ∧
      mode' ≠ .quoted ∧ (mode' = .line → mode = .line ∧ text = []) := by
  rw [← Text.length_toList] at hsize ⊢
  cases h with
  | bare hcell =>
      cases hchars : cell.toList with
      | nil =>
          refine ⟨mode, rfl, ?_, fun h => ⟨h, rfl⟩⟩
          rcases hmode with rfl | rfl <;> simp
      | cons c chars =>
          rw [hchars] at hcell hsize
          rw [List.length_cons] at hsize
          have hrest := scan_bare [c] done records
            (fun c hc => hcell c (List.mem_cons_of_mem _ hc))
            (show 1 + chars.length ≤ cellLimit by omega)
          have hstart : (⟨mode, [], 0, done, records⟩ : Progress).step c =
              .ok ⟨.bare, [c], 1, done, records⟩ := by
            rw [step_of_not_special (hcell c List.mem_cons_self)
              (by rcases hmode with rfl | rfl <;> simp)]
            exact push_of_lt (by simp only; omega) _ _
          refine ⟨.bare, ?_, by simp, by simp⟩
          rw [scan, hstart]
          simp [hrest, Nat.add_comm 1]
  | quoted =>
      have hopen : (⟨mode, [], 0, done, records⟩ : Progress).step '\x22' =
          .ok ⟨.quoted, [], 0, done, records⟩ := by
        rcases hmode with rfl | rfl <;> rfl
      have hbody := scan_doubled [] done records cell.toList
        (show 0 + cell.toList.length ≤ cellLimit by omega)
      refine ⟨.closed, ?_, by simp, by simp⟩
      rw [scan, hopen]
      simp only [scan_append, hbody]
      simp [scan, step]

/-- Behind the cells of a record only the last one is still open. -/
theorem scan_cellsText {cells : List Text} {text : List CodePoint} (h : CellsText cells text)
    (hsize : ∀ cell ∈ cells, cell.length ≤ cellLimit) (hmode : mode = .line ∨ mode = .cell) :
    ∃ q, scan ⟨mode, [], 0, done, records⟩ text = .ok q ∧ q.mode ≠ .quoted ∧
      (q.mode = .line → mode = .line ∧ text = []) ∧
      q.endCell = ⟨.cell, [], 0, cells.reverse ++ done, records⟩ := by
  induction h generalizing mode done with
  | last hcell =>
      obtain ⟨mode', hscan, hquoted, hline⟩ :=
        scan_cellText done records hcell (hsize _ List.mem_cons_self) hmode
      exact ⟨_, hscan, hquoted, hline, by simp [endCell]⟩
  | @cons cell text cells rest hcell hcells ih =>
      obtain ⟨mode', hscan, hquoted, -⟩ :=
        scan_cellText done records hcell (hsize _ List.mem_cons_self) hmode
      obtain ⟨q, hrest, hquoted', hline, hend⟩ :=
        ih (cell :: done) (fun cell hcell => hsize cell (List.mem_cons_of_mem _ hcell)) (Or.inr rfl)
      have hcomma : (⟨mode', cell.toList.reverse, cell.length, done, records⟩ : Progress).step ',' =
          .ok ⟨.cell, [], 0, cell :: done, records⟩ := by
        rw [step_comma (by exact hquoted)]
        simp [endCell]
      refine ⟨q, ?_, hquoted', fun h => absurd (hline h).1 nofun, by simpa using hend⟩
      simp only [scan_append, hscan, scan, hcomma, hrest]

/-- Behind a written record the end of the line closes the record. -/
theorem scan_record {cells : List Text} {text : List CodePoint} (h : CellsText cells text)
    (htext : text ≠ []) (hsize : ∀ cell ∈ cells, cell.length ≤ cellLimit) :
    ∃ q, (atLine records).scan text = .ok q ∧ q.mode ≠ .quoted ∧ q.mode ≠ .line ∧
      q.endLine = atLine (cells :: records) := by
  obtain ⟨q, hscan, hquoted, hline, hend⟩ := scan_cellsText [] records h hsize (Or.inl rfl)
  have hopen : q.mode ≠ .line := fun h => htext (hline h).2
  refine ⟨q, hscan, hquoted, hopen, ?_⟩
  rw [endLine, if_neg hopen, hend]
  simp [endRecord, atLine]

/-- Ends of a line that follow one another are blank lines. -/
theorem scan_blanks {chars : List CodePoint} (h : ∀ c ∈ chars, c = .char '\n' ∨ c = .char '\r') :
    (atLine records).scan chars = .ok (atLine (List.replicate chars.length [] ++ records)) := by
  induction chars generalizing records with
  | nil => rfl
  | cons c chars ih =>
      have hstep : (atLine records).step c = .ok (atLine ([] :: records)) :=
        step_lineEnd (p := atLine records) nofun (h c List.mem_cons_self)
      have hrest := ih ([] :: records) (fun c hc => h c (List.mem_cons_of_mem _ hc))
      simp only [scan, hstep, hrest, List.length_cons, List.replicate_succ']
      simp

end Progress

theorem LineEnd.mem_text {lineEnd : LineEnd} {c : CodePoint} (h : c ∈ lineEnd.text) :
    c = .char '\n' ∨ c = .char '\r' := by
  cases lineEnd <;> simp [text] at h <;> tauto

/-- The first character of an end of a line ends it, and all further ends make blank lines. -/
theorem exists_lineEnd_append (lineEnd : LineEnd) (blanks : List LineEnd) :
    ∃ c chars, lineEnd.text ++ blanks.flatMap LineEnd.text = c :: chars ∧
      (c = .char '\n' ∨ c = .char '\r') ∧ ∀ c ∈ chars, c = .char '\n' ∨ c = .char '\r' := by
  have hall : ∀ c ∈ lineEnd.text ++ blanks.flatMap LineEnd.text,
      c = .char '\n' ∨ c = .char '\r' := by
    intro c hc
    rcases List.mem_append.mp hc with hc | hc
    · exact LineEnd.mem_text hc
    · obtain ⟨blank, -, hc⟩ := List.mem_flatMap.mp hc
      exact LineEnd.mem_text hc
  have hne : lineEnd.text ++ blanks.flatMap LineEnd.text ≠ [] := by
    cases lineEnd <;> simp [LineEnd.text]
  obtain ⟨c, chars, heq⟩ := List.exists_cons_of_ne_nil hne
  rw [heq, List.forall_mem_cons] at hall
  exact ⟨c, chars, heq, hall⟩

theorem CellsText.ne_nil {cells : List Text} {text : List CodePoint} (h : CellsText cells text) :
    cells ≠ [] := by
  cases h <;> simp

/-- The records of a written table are those of the table and blank ones between them, but none
in front. -/
theorem scan_tableText {table : List (List Text)} {text : List CodePoint} (h : TableText table text)
    (hsize : ∀ record ∈ table, ∀ cell ∈ record, cell.length ≤ cellLimit)
    (records : List (List Text)) :
    ∃ q all, (Progress.atLine records).scan text = .ok q ∧ q.finish = records.reverse ++ all ∧
      all.filter (· ≠ []) = table ∧ all.head? = table.head? := by
  induction h generalizing records with
  | nil => exact ⟨_, [], rfl, by simp [Progress.finish, Progress.atLine], rfl, rfl⟩
  | unended hrecord htext =>
      obtain ⟨q, hscan, -, hopen, hend⟩ :=
        Progress.scan_record records hrecord htext (hsize _ List.mem_cons_self)
      refine ⟨q, [_], hscan, ?_, by simp [hrecord.ne_nil], rfl⟩
      simp [Progress.finish, hopen, hend, Progress.atLine]
  | @cons record text table rest hrecord htext lineEnd blanks hrest ih =>
      obtain ⟨q, hscan, hquoted, -, hend⟩ :=
        Progress.scan_record records hrecord htext (hsize _ List.mem_cons_self)
      obtain ⟨c, chars, hends, hc, hchars⟩ := exists_lineEnd_append lineEnd blanks
      obtain ⟨q', all, hscan', hfinish, hall, -⟩ :=
        ih (fun record hrecord => hsize record (List.mem_cons_of_mem _ hrecord))
        (List.replicate chars.length [] ++ record :: records)
      refine ⟨q', record :: (List.replicate chars.length [] ++ all), ?_, ?_, ?_, rfl⟩
      · rw [hends, Progress.scan_append, hscan]
        simp only [List.cons_append, Progress.scan, Progress.step_lineEnd hquoted hc, hend,
          Progress.scan_append, Progress.scan_blanks _ hchars, hscan']
      · simp [hfinish]
      · simpa [hrecord.ne_nil] using hall

theorem filter_zip_replicate (header : List Text) (count : Nat) :
    (header.zip (List.replicate count ("" : Text))).filter (·.2 ≠ ("" : Text)) = [] := by
  rw [List.filter_eq_nil_iff]
  intro entry hentry
  have hcell := List.eq_of_mem_replicate (List.of_mem_zip hentry).2
  simp [hcell]

/-- Empty cells behind a record change nothing. -/
theorem filter_zip_append_replicate (header cells : List Text) (count : Nat) :
    (header.zip (cells ++ List.replicate count ("" : Text))).filter (·.2 ≠ ("" : Text)) =
      (header.zip cells).filter (·.2 ≠ ("" : Text)) := by
  induction header generalizing cells with
  | nil => rfl
  | cons name header ih =>
      cases cells with
      | nil => exact filter_zip_replicate (name :: header) count
      | cons cell cells =>
          rw [List.cons_append, List.zip_cons_cons, List.zip_cons_cons, List.filter_cons,
            List.filter_cons, ih cells]

/-- Under distinct names a row has the cells that are there and not empty. -/
theorem row_of_nodup {header : List Text} (hheader : header.Nodup) (cells : List Text) :
    row header cells = (header.zip cells).filter (·.2 ≠ ("" : Text)) := by
  have hlength : header.length ≤
      (cells ++ List.replicate (header.length - cells.length) ("" : Text)).length := by
    simp only [List.length_append, List.length_replicate]
    omega
  have hnames : (Entries.names
      (header.zip (cells ++ List.replicate (header.length - cells.length) ("" : Text)))).Nodup := by
    rw [Entries.names, List.map_fst_zip hlength]
    exact hheader
  rw [row, Entries.ofPairs_of_nodup hnames]
  exact filter_zip_append_replicate header cells _

/-- The rows of a written table are its records behind the header. -/
theorem read_tableText {header : List Text} {table : List (List Text)} {text : List CodePoint}
    (h : TableText (header :: table) text) (hheader : header.Nodup)
    (hsize : ∀ record ∈ header :: table, ∀ cell ∈ record, cell.length ≤ cellLimit) :
    read text = .ok (table.map fun cells => (header.zip cells).filter (·.2 ≠ ("" : Text))) := by
  obtain ⟨q, all, hscan, hfinish, hall, hhead⟩ := scan_tableText h hsize []
  have hrecords : records text = .ok all := by
    rw [records, show Progress.start = Progress.atLine [] from rfl, hscan]
    exact congrArg Except.ok hfinish
  obtain ⟨rest, rfl⟩ := List.head?_eq_some_iff.mp hhead
  have hheader' : header ∈ (header :: rest).filter (· ≠ []) := by
    rw [hall]
    exact List.mem_cons_self
  have hne : header ≠ [] := by
    simpa using List.of_mem_filter hheader'
  have hrest : rest.filter (· ≠ []) = table := by
    simpa [hne] using hall
  rw [read, hrecords, ← hrest]
  exact congrArg Except.ok (List.map_congr_left fun cells _ => row_of_nodup hheader cells)

end RecordRegistry.Csv

namespace RecordRegistry.Rows

open Csv (TableText cellLimit)

/--
A table is read back from each of its written forms.  Under a header of distinct names, every record
makes one row of the cells that stand under a name and are not empty, in the order of the header and
with their characters unchanged.
-/
theorem ofCsv_tableText {header : List Text} {table : List (List Text)} {text : List CodePoint}
    (h : TableText (header :: table) text) (hheader : header.Nodup)
    (hsize : ∀ record ∈ header :: table, ∀ cell ∈ record, cell.length ≤ cellLimit) :
    ofCsv text = .ok (table.map fun cells =>
      ((header.zip cells).filter (·.2 ≠ ("" : Text))).map
        fun entry => (entry.1, .string entry.2)) := by
  rw [ofCsv, Csv.read_tableText h hheader hsize]
  simp only [List.map_map, Function.comp_def]

end RecordRegistry.Rows

namespace RecordRegistry.CsvWitness

open Csv (TableText CellsText CellText LineEnd cellLimit)

def header : List Text := ["name", "a,b", "note"]

def table : List (List Text) := [["x", "", "1\n\"2\"\r\n"], ["", "y"], ["z", "", "", "surplus"]]

/-- The header ends in a carriage return and a blank line follows, one record is short and one too
long, and the last line has no end. -/
def text : Text :=
  "name,\"a,b\",note\r\r\nx,,\"1\n\"\"2\"\"\r\n\"\n\"\",y\r\n\nz,,\"\",surplus"

theorem tableText_text : TableText (header :: table) text.toList := by
  have hheader : CellsText header _ :=
    .cons (.bare (by simp [Csv.isSpecial]))
      (.cons .quoted (.last (.bare (by simp [Csv.isSpecial]))))
  have hfirst : CellsText ["x", "", "1\n\"2\"\r\n"] _ :=
    .cons (.bare (by simp [Csv.isSpecial])) (.cons (.bare (by simp)) (.last .quoted))
  have hshort : CellsText ["", "y"] _ := .cons .quoted (.last (.bare (by simp [Csv.isSpecial])))
  have hlong : CellsText ["z", "", "", "surplus"] _ :=
    .cons (.bare (by simp [Csv.isSpecial])) (.cons (.bare (by simp))
      (.cons .quoted (.last (.bare (by simp [Csv.isSpecial])))))
  have htable := TableText.cons hheader (by simp) .carriageReturn [.both]
    (.cons hfirst (by simp) .lineFeed [] (.cons hshort (by simp) .both [.lineFeed]
      (.unended hlong (by simp))))
  simpa [text, table, LineEnd.text, Csv.doubled] using htable

theorem ofCsv_text :
    (TableText (header :: table) text.toList ∧ header.Nodup ∧
      ∀ record ∈ header :: table, ∀ cell ∈ record, cell.length ≤ cellLimit) ∧
    Rows.ofCsv text.toList = .ok [
      [("name", .string "x"), ("note", .string "1\n\"2\"\r\n")],
      [("a,b", .string "y")],
      [("name", .string "z")]] := by
  have hheader : header.Nodup := by decide
  have hsize : ∀ record ∈ header :: table, ∀ cell ∈ record, cell.length ≤ cellLimit := by
    simp [header, table, cellLimit, ← String.length_toList]
  refine ⟨⟨tableText_text, hheader, hsize⟩, ?_⟩
  rw [Rows.ofCsv_tableText tableText_text hheader hsize]
  rfl

end RecordRegistry.CsvWitness
