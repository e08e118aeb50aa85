import RecordRegistry.Disk.Tree
import RecordRegistry.Proofs.Csv.LineEnds
import RecordRegistry.Proofs.Text.Surrogates
import RecordRegistry.Proofs.Text.Utf8

/-!
# Tables in files

A file with the bytes of a text is read as the text, byte-order mark or not, but its line ends are
unified before the table is read. Whoever reads the text itself gets the same rows where no cell
holds a carriage return, and never the same where a row does.
-/

namespace RecordRegistry.Csv

theorem not_mem_unified (cell : Text) : .char '\r' ∉ (unified cell).toList := by
  rw [unified, Text.toList_ofList]
  exact Text.not_mem_unifyLineEnds cell.toList

theorem unified_of_not_mem {cell : Text} (h : .char '\r' ∉ cell.toList) : unified cell = cell := by
  rw [unified, Text.unifyLineEnds_of_not_mem h, Text.ofList_toList]

/-- The name of an entry is a cell of the header, and its value one of the record. -/
theorem mem_of_mem_row {header cells : List Text} {entry : Text × Text}
    (h : entry ∈ row header cells) : entry.1 ∈ header ∧ entry.2 ∈ cells := by
  rw [row, List.mem_filter, decide_eq_true_eq] at h
  obtain ⟨hname, hvalue⟩ := List.of_mem_zip (Entries.mem_of_mem_ofPairs h.1)
  refine ⟨hname, ?_⟩
  rcases List.mem_append.mp hvalue with hcell | hpadding
  · exact hcell
  · exact absurd (List.eq_of_mem_replicate hpadding) h.2

/-- Names and values of rows are cells of the records. -/
theorem mem_of_mem_rows {records : List (List Text)} {row : Entries Text}
    (hrow : row ∈ rows records) {entry : Text × Text} (hentry : entry ∈ row) :
    (∃ record ∈ records, entry.1 ∈ record) ∧ ∃ record ∈ records, entry.2 ∈ record := by
  cases records with
  | nil => cases hrow
  | cons header records =>
      rw [rows, List.mem_map] at hrow
      obtain ⟨cells, hcells, rfl⟩ := hrow
      have hmem := mem_of_mem_row hentry
      exact ⟨⟨header, List.mem_cons_self, hmem.1⟩,
        ⟨cells, List.mem_cons_of_mem _ (List.mem_of_mem_filter hcells), hmem.2⟩⟩

end RecordRegistry.Csv

namespace RecordRegistry.Rows

/-- Whether a row holds a carriage return, in a name or in a text. -/
def HoldsReturn (row : Json.Record) : Prop :=
  ∃ entry ∈ row, .char '\r' ∈ entry.1.toList ∨
    ∃ text, entry.2 = .string text ∧ .char '\r' ∈ text.toList

theorem not_holdsReturn_of_unified {records : List (List Text)} {rows : List Json.Record}
    (h : ofRecords (records.map (List.map Csv.unified)) = .ok rows) {row : Json.Record}
    (hrow : row ∈ rows) : ¬ HoldsReturn row := by
  rw [ofRecords] at h
  split at h
  · cases h
    obtain ⟨cells, hcells, rfl⟩ := List.mem_map.mp hrow
    rintro ⟨entry, hentry, hreturn⟩
    obtain ⟨named, hnamed, rfl⟩ := List.mem_map.mp hentry
    have hunified {cell : Text}
        (h : ∃ record ∈ records.map (List.map Csv.unified), cell ∈ record) :
        .char '\r' ∉ cell.toList := by
      obtain ⟨record, hrecord, hcell⟩ := h
      obtain ⟨record, -, rfl⟩ := List.mem_map.mp hrecord
      obtain ⟨cell, -, rfl⟩ := List.mem_map.mp hcell
      exact Csv.not_mem_unified cell
    obtain ⟨hname, hvalue⟩ := Csv.mem_of_mem_rows hcells hnamed
    rcases hreturn with hreturn | ⟨text, htext, hreturn⟩
    · exact hunified hname hreturn
    · cases htext
      exact hunified hvalue hreturn
  · cases h

section File

variable {σ : Type} {disk : Disk (StateM σ)} {path : Path} {s s' : σ} {bytes : List UInt8}

/-- The disk is read once, after the format has been settled. -/
theorem load_eq (disk : Disk (StateM σ)) (path : Path) (asked : Option Text) (s : σ) :
    load disk path asked s =
      match chooseFormat path asked with
      | .error e => (.error e, s)
      | .ok format =>
        match disk.read path s with
        | (.error e, s') => (.error (.file e), s')
        | (.ok bytes, s') => (ofBytes format bytes, s') := by
  rw [load]
  cases chooseFormat path asked with
  | error e => rfl
  | ok format =>
      simp only [bind, StateT.bind]
      rcases disk.read path s with ⟨e | bytes, s'⟩ <;> rfl

theorem load_of_read (hread : disk.read path s = (.ok bytes, s')) {asked : Option Text}
    {format : RowFormat} (hformat : chooseFormat path asked = .ok format) :
    load disk path asked s = (ofBytes format bytes, s') := by
  rw [load_eq, hformat, hread]

/-- A file with the bytes of a text, byte-order mark or not, has the rows of the text with its line
ends unified. -/
theorem ofBytes_utf8 (format : RowFormat) {text : Text} {encoded : List UInt8}
    (hencoded : text.utf8 = .ok encoded) (hmark : text.toList.head? ≠ some (.char '\uFEFF'))
    (hbytes : bytes = encoded ∨ bytes = Text.Utf8.mark ++ encoded) :
    ofBytes format bytes = (ofText format (Text.unifyLineEnds text.toList)).mapError .rows := by
  obtain ⟨chars, hchars, rfl⟩ := Text.utf8_eq_ok_iff.mp hencoded
  have hhead : chars.head? ≠ some '\uFEFF' := by
    intro hhead
    rw [hchars, List.head?_map, hhead] at hmark
    exact hmark rfl
  have hdecode : Text.Utf8.decodeFile bytes = .ok chars := by
    rcases hbytes with rfl | rfl
    · exact Text.Utf8.decodeFile_encode hhead
    · exact Text.Utf8.decodeFile_mark_encode chars
  rw [ofBytes, hdecode, hchars]

/--
What a table file gives, beside what its text gives.  The file has the records of the text with the
line ends in every cell unified, and whether a cell is too long is asked after that.  Where no cell
holds a carriage return the two agree, and where a row of the text holds one they differ.
-/
theorem load_csv_encode {text : Text} {encoded : List UInt8}
    (hread : disk.read path s = (.ok bytes, s')) (hencoded : text.utf8 = .ok encoded)
    (hmark : text.toList.head? ≠ some (.char '\uFEFF'))
    (hbytes : bytes = encoded ∨ bytes = Text.Utf8.mark ++ encoded) :
    load disk path (some "csv") s =
        ((ofRecords ((Csv.unlimited text.toList).map (List.map Csv.unified))).mapError .rows,
          s') ∧
      ofCsv text.toList = ofRecords (Csv.unlimited text.toList) ∧
      ((∀ record ∈ Csv.unlimited text.toList, ∀ cell ∈ record, .char '\r' ∉ cell.toList) →
        load disk path (some "csv") s = ((ofCsv text.toList).mapError .rows, s')) ∧
      ∀ rows, ofCsv text.toList = .ok rows → (∃ row ∈ rows, HoldsReturn row) →
        load disk path (some "csv") s ≠ ((ofCsv text.toList).mapError .rows, s') := by
  have hload : load disk path (some "csv") s =
      ((ofRecords ((Csv.unlimited text.toList).map (List.map Csv.unified))).mapError .rows,
        s') := by
    have hformat : chooseFormat path (some "csv") = .ok .csv := rfl
    rw [load_of_read hread hformat, ofBytes_utf8 .csv hencoded hmark hbytes, ofText,
      ofCsv_unifyLineEnds]
  refine ⟨hload, ofCsv_eq_ofRecords text.toList, ?_, ?_⟩
  · intro hcells
    have hsame : (Csv.unlimited text.toList).map (List.map Csv.unified) =
        Csv.unlimited text.toList := by
      refine (List.map_congr_left fun record hrecord => ?_).trans (List.map_id _)
      exact (List.map_congr_left fun cell hcell =>
        Csv.unified_of_not_mem (hcells record hrecord cell hcell)).trans (List.map_id _)
    rw [hload, hsame, ofCsv_eq_ofRecords]
  · rintro rows hrows ⟨row, hrow, hreturn⟩ hsame
    rw [hload, hrows] at hsame
    cases hunified : ofRecords ((Csv.unlimited text.toList).map (List.map Csv.unified)) with
    | error e =>
        rw [hunified] at hsame
        cases hsame
    | ok unified =>
        rw [hunified] at hsame
        cases hsame
        exact not_holdsReturn_of_unified hunified hrow hreturn

end File

end RecordRegistry.Rows

namespace RecordRegistry.TableFileWitness

open Rows (load ofCsv HoldsReturn)

def path : Path := ⟨.here, ["a.csv"]⟩

/-- A header and one quoted cell with a line end of two characters. -/
def text : Text := "h\n\"x\r\ny\"\n"

/-- The bytes of the text. -/
def encoded : List UInt8 := [0x68, 0x0A, 0x22, 0x78, 0x0D, 0x0A, 0x79, 0x22, 0x0A]

theorem utf8_text : text.utf8 = .ok encoded := by
  rfl

def tree (bytes : List UInt8) : Tree := ⟨[], [(["a.csv"], .file bytes)]⟩

theorem read_tree (bytes : List UInt8) :
    Tree.disk.read path (tree bytes) = (.ok bytes, tree bytes) := by
  rfl

theorem rows_text : ofCsv text.toList = .ok [[("h", .string "x\r\ny")]] := by
  rfl

/-- The byte-order mark is dropped, and the cell loses its carriage return. -/
theorem load_marked_text :
    load Tree.disk path (some "csv") (tree (Text.Utf8.mark ++ encoded)) ≠
      ((ofCsv text.toList).mapError .rows, tree (Text.Utf8.mark ++ encoded)) := by
  have hread := read_tree (Text.Utf8.mark ++ encoded)
  obtain ⟨-, -, -, hdiffer⟩ := Rows.load_csv_encode hread utf8_text (by decide) (.inr rfl)
  refine hdiffer _ rows_text ⟨_, List.mem_singleton_self _, _, List.mem_singleton_self _, .inr ?_⟩
  exact ⟨_, rfl, by decide⟩

/-- The rows of a text and the rows of a file with the bytes of the text, which are not the
same. -/
theorem load_text_ne :
    text.toList.head? ≠ some (.char '\uFEFF') ∧ text.utf8 = .ok encoded ∧
      (load Tree.disk path (some "csv") (tree encoded)).1 = .ok [[("h", .string "x\ny")]] ∧
      ofCsv text.toList = .ok [[("h", .string "x\r\ny")]] := by
  refine ⟨by decide, utf8_text, ?_, rfl⟩
  rfl

end RecordRegistry.TableFileWitness
