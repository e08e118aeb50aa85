import RecordRegistry.Json.Fault
import RecordRegistry.Text.Hex

/-!
# Reading texts in JSON

A text stands between quotation marks. A backslash protects one character or opens the four digits
of a code unit; two code units may make up one character. Half of such a pair without the other one
is no error: the text then holds a surrogate.
-/

namespace RecordRegistry.Json

/-- The character that a single letter stands for after a backslash. -/
def unescape? : CodePoint → Option CodePoint
  | .char '\x22' => some (.char '\x22')
  | .char '\\' => some (.char '\\')
  | .char '/' => some (.char '/')
  | .char 'b' => some (.char '\x08')
  | .char 'f' => some (.char '\x0c')
  | .char 'n' => some (.char '\n')
  | .char 'r' => some (.char '\r')
  | .char 't' => some (.char '\t')
  | _ => none

/-- A code point of a text, or half of a pair that an escape writes. Only halves that are written so
make up a character together. -/
inductive Piece where
  | point (c : CodePoint)
  | half (s : Surrogate)
deriving DecidableEq, Repr

/-- What an escape with the number of a code unit writes. -/
def Piece.ofUnit (code : Nat) : Piece :=
  match CodePoint.ofNat code with
  | .surrogate s => half s
  | c => point c

/-- Whether a half opens a pair for one character beyond U+FFFF; the others close one. -/
def isHigh (s : Surrogate) : Bool := s.code < 0xDC00

/-- The character of a pair of halves. -/
def joinSurrogates (high low : Surrogate) : CodePoint :=
  CodePoint.ofNat (0x10000 + (high.code - 0xD800) * 0x400 + (low.code - 0xDC00))

/-- Puts the code points of pieces, which stand last one first, in front of a text. A half without
its other half stays as it is. -/
def joinPieces (text : List CodePoint) : List Piece → List CodePoint
  | .half low :: .half high :: pieces =>
    if !isHigh low && isHigh high then joinPieces (joinSurrogates high low :: text) pieces
    else joinPieces (.surrogate low :: text) (.half high :: pieces)
  | .half s :: pieces => joinPieces (.surrogate s :: text) pieces
  | .point c :: pieces => joinPieces (c :: text) pieces
  | [] => text

/-- The code unit written by four digits, which may not be the end of the text. -/
def codeUnit? (a b c d : CodePoint) (rest : List CodePoint) : Option Nat :=
  if rest.isEmpty then none else Text.ofHex? [a, b, c, d]

/-- Reads a text up to its closing mark. `opening` is the text from the opening mark on, and `read`
holds the pieces so far, last one first. -/
def stringBody (opening : List CodePoint) (read : List Piece) :
    List CodePoint → Except Stop (Text × List CodePoint)
  | [] => .error (.fault .unterminated opening)
  | .char '\x22' :: rest => .ok (Text.ofList (joinPieces [] read), rest)
  | .char '\\' :: rest =>
    match rest with
    | [] => .error (.fault .unterminated opening)
    | .char 'u' :: a :: b :: c :: d :: rest =>
      match codeUnit? a b c d rest with
      | none => .error (.fault .unicodeEscape (.char 'u' :: a :: b :: c :: d :: rest))
      | some code => stringBody opening (.ofUnit code :: read) rest
    | .char 'u' :: rest => .error (.fault .unicodeEscape (.char 'u' :: rest))
    | letter :: rest =>
      match unescape? letter with
      | some c => stringBody opening (.point c :: read) rest
      | none => .error (.fault .escape (.char '\\' :: letter :: rest))
  | c :: rest =>
    if c.toNat < 0x20 then .error (.fault .control (c :: rest))
    else stringBody opening (.point c :: read) rest

end RecordRegistry.Json
