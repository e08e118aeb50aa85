import RecordRegistry.Proofs.Json.LineEnds
import RecordRegistry.Proofs.Load.Table

/-!
# JSON in files

A file with the bytes of a text is read as the text with its line ends unified, byte-order mark or
not. JSON is the same with its line ends unified, so that the file has the rows of the text.
-/

namespace RecordRegistry.Rows

/-- The same refusal, or one for the same reason at another place in the text. -/
inductive SameRefusal : RowsError → RowsError → Prop
  | same (e : RowsError) : SameRefusal e e
  | moved {e e' : Json.ReadError} (h : e.Moved e') : SameRefusal (.json e) (.json e')

/-- A text of JSON has the same rows with its line ends unified, or is refused for the same
reason. -/
theorem ofJson_unifyLineEnds (text : List CodePoint) :
    (∃ rows, ofJson text = .ok rows ∧ ofJson (Text.unifyLineEnds text) = .ok rows) ∨
      ∃ e e', ofJson text = .error e ∧ ofJson (Text.unifyLineEnds text) = .error e' ∧
        SameRefusal e e' := by
  rw [ofJson, ofJson]
  rcases Json.read_unifyLineEnds text with ⟨v, hread, hread'⟩ | ⟨e, e', hread, hread', hmoved⟩
  · rw [hread, hread']
    cases hrows : ofValue v with
    | ok rows => exact .inl ⟨rows, hrows, hrows⟩
    | error e => exact .inr ⟨e, e, hrows, hrows, .same e⟩
  · rw [hread, hread']
    exact .inr ⟨.json e, .json e', rfl, rfl, .moved hmoved⟩

section File

variable {σ : Type} {disk : Disk (StateM σ)} {path : Path} {s s' : σ} {bytes : List UInt8}

/--
A file of JSON has the rows of its text.  Whether the text has a byte-order mark and how its lines
end, the file gives rows exactly when the text does, and then the same.  Where both are refused it
is for the same reason, of which only the place may differ.
-/
theorem load_json_encode {text : Text} {encoded : List UInt8}
    (hread : disk.read path s = (.ok bytes, s')) (hencoded : text.utf8 = .ok encoded)
    (hmark : text.toList.head? ≠ some (.char '\uFEFF'))
    (hbytes : bytes = encoded ∨ bytes = Text.Utf8.mark ++ encoded) :
    (∀ rows, load disk path (some "json") s = (.ok rows, s') ↔ ofJson text.toList = .ok rows) ∧
      ∀ e, ofJson text.toList = .error e → ∃ e', SameRefusal e e' ∧
        load disk path (some "json") s = (.error (.rows e'), s') := by
  have hload : load disk path (some "json") s =
      ((ofJson (Text.unifyLineEnds text.toList)).mapError .rows, s') := by
    have hformat : chooseFormat path (some "json") = .ok .json := rfl
    rw [load_of_read hread hformat, ofBytes_utf8 .json hencoded hmark hbytes, ofText]
  rw [hload]
  rcases ofJson_unifyLineEnds text.toList with ⟨rows, hrows, hrows'⟩ | ⟨e, e', hrows, hrows', hsame⟩
  · rw [hrows, hrows']
    refine ⟨fun others => ⟨?_, ?_⟩, by simp⟩
    · intro h
      cases h
      rfl
    · intro h
      cases h
      rfl
  · rw [hrows, hrows']
    refine ⟨fun others => ⟨?_, by simp⟩, ?_⟩
    · intro h
      cases h
    · intro other hother
      cases hother
      exact ⟨e', hsame, rfl⟩

end File

end RecordRegistry.Rows

namespace RecordRegistry.DocumentFileWitness

open Rows (load ofJson)
open TableFileWitness (path tree read_tree)

/-- An array of one object, with line ends of all three kinds between its tokens. -/
def text : Text := "[\r\n\x7b\r\x7d\n]\r"

/-- The bytes of the text. -/
def encoded : List UInt8 := [0x5B, 0x0D, 0x0A, 0x7B, 0x0D, 0x7D, 0x0A, 0x5D, 0x0D]

/-- The byte-order mark and the carriage returns make no difference. -/
theorem load_marked_document :
    text.utf8 = .ok encoded ∧
      load Tree.disk path (some "json") (tree (Text.Utf8.mark ++ encoded)) =
        (.ok [[]], tree (Text.Utf8.mark ++ encoded)) := by
  have hencoded : text.utf8 = .ok encoded := rfl
  have hrows : ofJson text.toList = .ok [[]] := by
    simp only [text, Text.toList_ofString, String.reduceToList, List.map_cons, List.map_nil]
    rfl
  have hread := read_tree (Text.Utf8.mark ++ encoded)
  have hload := Rows.load_json_encode hread hencoded (by decide) (.inr rfl)
  exact ⟨hencoded, (hload.1 _).mpr hrows⟩

end RecordRegistry.DocumentFileWitness
