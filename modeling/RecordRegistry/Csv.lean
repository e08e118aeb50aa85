import RecordRegistry.Entries

/-!
# Comma-separated values

A text is read in one pass, a character a step, into records of cells. A cell that opens with a
quotation mark may hold commas and line ends, and a doubled mark in it stands for one mark. A line
ends at a line feed and at a carriage return; the second character of the pair ends a blank line,
and blank lines make no rows.
-/

namespace RecordRegistry.Csv

/-- The most characters that a cell may have. -/
def cellLimit : Nat := 131072

/-- A cell has more characters than `cellLimit`. -/
structure CellTooLong where
deriving DecidableEq, Repr

/-- The wording of the refusal. -/
def CellTooLong.message (_ : CellTooLong) : Text :=
  "field larger than field limit (" ++ toString cellLimit ++ ")"

/-- Where in its record the reader stands: before the first character of a line, before the first
character of another cell, inside a cell without quotation marks, inside a quoted cell, or behind
a mark that closes a quoted cell unless another one follows. -/
inductive Mode where
  | line
  | cell
  | bare
  | quoted
  | closed
deriving DecidableEq, Repr

/-- What has been read. Characters, cells and records stand last one first; `size` counts the
characters of the open cell. -/
structure Progress where
  mode : Mode
  text : List CodePoint
  size : Nat
  cells : List Text
  records : List (List Text)
deriving DecidableEq, Repr

namespace Progress

/-- Before the first character. -/
def start : Progress := ⟨.line, [], 0, [], []⟩

/-- Adds a character to the open cell. -/
def push (p : Progress) (mode : Mode) (c : CodePoint) : Except CellTooLong Progress :=
  if p.size < cellLimit then
    .ok { p with mode := mode, text := c :: p.text, size := p.size + 1 }
  else .error ⟨⟩

/-- Closes the open cell. -/
def endCell (p : Progress) : Progress :=
  { p with
    mode := .cell, text := [], size := 0, cells := Text.ofList p.text.reverse :: p.cells }

/-- Closes the open record. -/
def endRecord (p : Progress) : Progress :=
  ⟨.line, [], 0, [], p.cells.reverse :: p.records⟩

/-- Closes the open line; a blank one is a record without cells. -/
def endLine (p : Progress) : Progress :=
  if p.mode = .line then p.endRecord else p.endCell.endRecord

/-- Reads a character that is not protected by quotation marks. -/
def outside (p : Progress) (c : CodePoint) : Except CellTooLong Progress :=
  if c = .char ',' then .ok p.endCell
  else if c = .char '\n' ∨ c = .char '\r' then .ok p.endLine
  else p.push .bare c

/-- Reads one character. A mark opens a quoted cell at the start of a cell only, and what follows
a closed cell without a comma goes on with it. -/
def step (p : Progress) (c : CodePoint) : Except CellTooLong Progress :=
  match p.mode with
  | .line | .cell => if c = .char '\x22' then .ok { p with mode := .quoted } else p.outside c
  | .bare => p.outside c
  | .quoted => if c = .char '\x22' then .ok { p with mode := .closed } else p.push .quoted c
  | .closed => if c = .char '\x22' then p.push .quoted c else p.outside c

/-- Reads a text character by character. -/
def scan (p : Progress) : List CodePoint → Except CellTooLong Progress
  | [] => .ok p
  | c :: rest =>
    match p.step c with
    | .error e => .error e
    | .ok next => next.scan rest

/-- A text in two parts is read part by part. -/
theorem scan_append (p : Progress) (first second : List CodePoint) :
    p.scan (first ++ second) =
      match p.scan first with
      | .error e => .error e
      | .ok next => next.scan second := by
  induction first generalizing p with
  | nil => rfl
  | cons c rest ih =>
    simp only [List.cons_append, scan]
    cases p.step c with
    | error e => rfl
    | ok next => exact ih next

/-- The records in order. The end of the text ends the line on which it stands. -/
def finish (p : Progress) : List (List Text) :=
  (if p.mode = .line then p.records else p.endLine.records).reverse

end Progress

/-- The records of a text, blank lines included. -/
def records (text : List CodePoint) : Except CellTooLong (List (List Text)) :=
  (Progress.start.scan text).map Progress.finish

/-- The cells of a record under the names of a header. The last of several cells of one name
counts, a cell that the record lacks counts as an empty one, and empty cells have no entry. Cells
beyond the header are dropped. -/
def row (header cells : List Text) : Entries Text :=
  let padded := cells ++ List.replicate (header.length - cells.length) ("" : Text)
  (Entries.ofPairs (header.zip padded)).filter (·.2 ≠ "")

/-- The first record is the header, and every later one that is not blank is a row. -/
def rows : List (List Text) → List (Entries Text)
  | [] => []
  | header :: rest => (rest.filter (· ≠ [])).map (row header)

/-- The rows of a text. -/
def read (text : List CodePoint) : Except CellTooLong (List (Entries Text)) :=
  (records text).map rows

end RecordRegistry.Csv
