import RecordRegistry.Proofs.Json.Depth
import RecordRegistry.Proofs.Load.Table

/-!
# Failures of the loader

What keeps the rows of a file from being loaded is a failure of the file system or of the content,
but for one case: a table with a cell that has too many characters.
-/

namespace RecordRegistry.LoadError

/-- The failures that are told apart by whoever loads rows: those of the file system and those of
what it is asked to load. -/
inductive Kind where
  | system
  | content
deriving DecidableEq, Repr

/-- The kind of a failure; the reader's own limits on cells and on depth are of neither kind. -/
def kind? : LoadError → Option Kind
  | format _ => some .content
  | file error =>
      match error.fault with
      | .nullCharacter | .surrogate _ => some .content
      | _ => some .system
  | encoding _ => some .content
  | rows (.csv _) => none
  | rows (.json .tooDeep) => none
  | rows _ => some .content

end RecordRegistry.LoadError

namespace RecordRegistry.Rows

/-- A failure of the file system has its kind, and so has a path that it cannot be asked for. -/
theorem isSome_kind?_file (error : FileError) : (LoadError.file error).kind?.isSome = true := by
  rw [LoadError.kind?]
  split <;> rfl

theorem isSome_kind?_of_ofItems {index : Nat} {items : List Json.Value} {e : RowsError}
    (h : ofItems index items = .error e) : (LoadError.rows e).kind?.isSome = true := by
  fun_induction ofItems index items with
  | case1 => cases h
  | case2 index members items ih =>
      cases hitems : ofItems (index + 1) items with
      | ok rows =>
          rw [hitems] at h
          cases h
      | error e' =>
          rw [hitems] at h
          cases h
          exact ih hitems
  | case3 =>
      cases h
      rfl

theorem isSome_kind?_of_ofValue {v : Json.Value} {e : RowsError} (h : ofValue v = .error e) :
    (LoadError.rows e).kind?.isSome = true := by
  unfold ofValue at h
  split at h
  · exact isSome_kind?_of_ofItems h
  · split at h
    · exact isSome_kind?_of_ofItems h
    · cases h
  · cases h
    rfl

/-- A text of JSON is refused for its content. -/
theorem isSome_kind?_of_ofJson {text : List CodePoint} {e : RowsError} (h : ofJson text = .error e) :
    (LoadError.rows e).kind?.isSome = true := by
  rw [ofJson] at h
  split at h
  · next error hread =>
    cases h
    cases error with
    | malformed fault place => rfl
    | tooManyDigits count => rfl
    | tooDeep => exact absurd hread (Json.read_ne_tooDeep text)
  · exact isSome_kind?_of_ofValue h

/-- Records are refused for a cell that is too long, and for nothing else. -/
theorem ofRecords_eq_error_iff {records : List (List Text)} {e : RowsError} :
    ofRecords records = .error e ↔
      e = .csv ⟨⟩ ∧ ∃ record ∈ records, ∃ cell ∈ record, Csv.cellLimit < cell.length := by
  have hlong : ¬ Csv.Fitting records ↔
      ∃ record ∈ records, ∃ cell ∈ record, Csv.cellLimit < cell.length := by
    simp [Csv.Fitting]
  rw [ofRecords, ← hlong]
  by_cases h : Csv.Fitting records
  · simp [h]
  · simp [h, eq_comm]

/-- A file of a format has a cell that is too long once its line ends are unified. -/
def LongCell (format : RowFormat) (bytes : List UInt8) : Prop :=
  format = .csv ∧ ∃ chars, Text.Utf8.decodeFile bytes = .ok chars ∧
    ∃ record ∈ Csv.unlimited (chars.map .char), ∃ cell ∈ record,
      Csv.cellLimit < (Csv.unified cell).length

/-- A table with its line ends unified has the cells of the table, unified one by one. -/
theorem ofCsv_unifyLineEnds_eq_error_iff {text : List CodePoint} {e : RowsError} :
    ofCsv (Text.unifyLineEnds text) = .error e ↔
      e = .csv ⟨⟩ ∧ ∃ record ∈ Csv.unlimited text, ∃ cell ∈ record,
        Csv.cellLimit < (Csv.unified cell).length := by
  rw [ofCsv_unifyLineEnds, ofRecords_eq_error_iff]
  simp

/-- A file with a long cell is refused for it, and every other failure is of some kind. -/
theorem ofBytes_failure {format : RowFormat} {bytes : List UInt8} {e : LoadError}
    (h : ofBytes format bytes = .error e) :
    e = .rows (.csv ⟨⟩) ∧ LongCell format bytes ∨
      e.kind?.isSome = true ∧ ¬ LongCell format bytes := by
  rw [ofBytes] at h
  split at h
  · next fault hdecode =>
    refine .inr ⟨by cases h; rfl, ?_⟩
    rintro ⟨-, chars, hchars, -⟩
    rw [hdecode] at hchars
    cases hchars
  · next chars hdecode =>
    cases hrows : ofText format (Text.unifyLineEnds (chars.map .char)) with
    | ok rows =>
        rw [hrows] at h
        cases h
    | error refusal =>
        rw [hrows] at h
        cases h
        cases format with
        | json => exact .inr ⟨isSome_kind?_of_ofJson hrows, by simp [LongCell]⟩
        | csv =>
            obtain ⟨rfl, hlong⟩ := ofCsv_unifyLineEnds_eq_error_iff.mp hrows
            exact .inl ⟨rfl, rfl, chars, hdecode, hlong⟩

theorem ofBytes_of_longCell {format : RowFormat} {bytes : List UInt8}
    (h : LongCell format bytes) : ofBytes format bytes = .error (.rows (.csv ⟨⟩)) := by
  obtain ⟨rfl, chars, hdecode, hlong⟩ := h
  have hrows : ofText .csv (Text.unifyLineEnds (chars.map .char)) = .error (.csv ⟨⟩) :=
    ofCsv_unifyLineEnds_eq_error_iff.mpr ⟨rfl, hlong⟩
  rw [ofBytes, hdecode]
  simp only [hrows]
  rfl

section File

variable {σ : Type} {disk : Disk (StateM σ)} {path : Path} {asked : Option Text} {s : σ}

/-- The file at a path is read as a table, and a cell of it is too long. -/
def LongCellAt (disk : Disk (StateM σ)) (path : Path) (asked : Option Text) (s : σ) : Prop :=
  ∃ format bytes, chooseFormat path asked = .ok format ∧ (disk.read path s).1 = .ok bytes ∧
    LongCell format bytes

theorem isSome_kind?_of_chooseFormat {e : LoadError} (h : chooseFormat path asked = .error e) :
    e.kind?.isSome = true := by
  unfold chooseFormat at h
  dsimp only at h
  split at h
  · cases h
  · split at h
    · cases h
    · cases h
      rfl

/-- Loading fails for a long cell, or with a failure that has its kind. -/
theorem load_failure {e : LoadError} (h : (load disk path asked s).1 = .error e) :
    e = .rows (.csv ⟨⟩) ∧ LongCellAt disk path asked s ∨
      e.kind?.isSome = true ∧ ¬ LongCellAt disk path asked s := by
  rw [load_eq] at h
  cases hformat : chooseFormat path asked with
  | error e' =>
      rw [hformat] at h
      cases h
      refine .inr ⟨isSome_kind?_of_chooseFormat hformat, ?_⟩
      rintro ⟨format, bytes, hformat', -⟩
      rw [hformat] at hformat'
      cases hformat'
  | ok format =>
      rw [hformat] at h
      rcases hread : disk.read path s with ⟨fault | bytes, s'⟩
      · rw [hread] at h
        cases h
        refine .inr ⟨isSome_kind?_file fault, ?_⟩
        rintro ⟨format, bytes, -, hread', -⟩
        rw [hread] at hread'
        cases hread'
      · rw [hread] at h
        have hlong : LongCellAt disk path asked s ↔ LongCell format bytes := by
          simp [LongCellAt, hformat, hread]
        rw [hlong]
        exact ofBytes_failure h

/-- A long cell keeps a table from being loaded. -/
theorem load_of_longCellAt (h : LongCellAt disk path asked s) :
    (load disk path asked s).1 = .error (.rows (.csv ⟨⟩)) := by
  obtain ⟨format, bytes, hformat, hread, hlong⟩ := h
  rw [load_eq, hformat]
  rcases hdisk : disk.read path s with ⟨result, s'⟩
  rw [hdisk] at hread
  cases hread
  exact ofBytes_of_longCell hlong

/-- A table is refused for a long cell exactly when it has one. -/
theorem load_eq_csv_iff :
    (load disk path asked s).1 = .error (.rows (.csv ⟨⟩)) ↔ LongCellAt disk path asked s := by
  constructor
  · intro h
    rcases load_failure h with ⟨-, hlong⟩ | ⟨hkind, -⟩
    · exact hlong
    · cases hkind
  · exact load_of_longCellAt

end File

end RecordRegistry.Rows
