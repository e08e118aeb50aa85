import RecordRegistry.Text.Hex

/-!
# UTF-8

Bytes are read as UTF-8 text: every ill-formed sequence is refused at the place where it starts,
and overlong forms, surrogates and code points beyond U+10FFFF are ill-formed. So only characters
are read, and a text that holds a surrogate has no bytes. A text file may open with one byte-order
mark, which is no part of its text, and may end its lines in any of three ways.
-/

namespace RecordRegistry.Text

/-- Why a byte sequence is no UTF-8 text. -/
inductive Utf8Fault where
  | startByte
  | continuation
  | truncated
deriving DecidableEq, Repr

/-- An ill-formed sequence: its first byte, the place of that byte, how many bytes belong to the
fault, and what is wrong with them. -/
structure Utf8Error where
  first : UInt8
  position : Nat
  length : Nat
  fault : Utf8Fault
deriving DecidableEq, Repr

namespace Utf8Error

/-- The wording of a fault. -/
def reason : Utf8Fault → Text
  | .startByte => "invalid start byte"
  | .continuation => "invalid continuation byte"
  | .truncated => "unexpected end of data"

/-- One faulty byte is named, several are located. -/
def message (e : Utf8Error) : Text :=
  let place :=
    if e.length = 1 then
      "byte 0x" ++ ofList (hex 2 e.first.toNat) ++
        " in position " ++ toString e.position
    else
      "bytes in position " ++ toString e.position ++ "-" ++ toString (e.position + e.length - 1)
  "'utf-8' codec can't decode " ++ place ++ ": " ++ reason e.fault

end Utf8Error

/-- Why a text has no bytes: its first surrogate, the place of that surrogate, and how many of them
stand there together. -/
structure SurrogateError where
  first : Surrogate
  position : Nat
  length : Nat
deriving DecidableEq, Repr

/-- One surrogate is named, several are located. -/
def SurrogateError.message (e : SurrogateError) : Text :=
  let place :=
    if e.length = 1 then
      "character '\\u" ++ ofList (hex 4 e.first.code) ++ "' in position " ++ toString e.position
    else
      "characters in position " ++ toString e.position ++ "-" ++
        toString (e.position + e.length - 1)
  "'utf-8' codec can't encode " ++ place ++ ": surrogates not allowed"

namespace Utf8

/-- Bytes that go on with a character: 80 to BF. -/
def isContinuation (b : UInt8) : Bool := 0x80 ≤ b && b ≤ 0xBF

/-- The second byte of a character. After E0 and F0 the low ones would be overlong, after ED the
high ones surrogates, and after F4 the high ones beyond the last code point. -/
def isSecond (lead b : UInt8) : Bool :=
  isContinuation b &&
    !(lead == 0xE0 && b < 0xA0) && !(lead == 0xED && 0xA0 ≤ b) &&
    !(lead == 0xF0 && b < 0x90) && !(lead == 0xF4 && 0x90 ≤ b)

/-- The six bits that a continuation byte adds. -/
def extend (code : Nat) (b : UInt8) : Nat := code * 64 + b.toNat % 64

/-- Reads on at byte number `position`; `read` holds the characters before it, last one first. -/
def decodeFrom (position : Nat) (read : List Char) : List UInt8 → Except Utf8Error (List Char)
  | [] => .ok read.reverse
  | b :: rest =>
    if b < 0x80 then decodeFrom (position + 1) (Char.ofNat b.toNat :: read) rest
    else if b < 0xC2 || 0xF4 < b then .error ⟨b, position, 1, .startByte⟩
    else match rest with
      | [] => .error ⟨b, position, 1, .truncated⟩
      | b₂ :: rest =>
        if !isSecond b b₂ then .error ⟨b, position, 1, .continuation⟩
        else if b < 0xE0 then
          decodeFrom (position + 2) (Char.ofNat (extend (b.toNat % 32) b₂) :: read) rest
        else match rest with
          | [] => .error ⟨b, position, 2, .truncated⟩
          | b₃ :: rest =>
            if !isContinuation b₃ then .error ⟨b, position, 2, .continuation⟩
            else if b < 0xF0 then
              decodeFrom (position + 3)
                (Char.ofNat (extend (extend (b.toNat % 16) b₂) b₃) :: read) rest
            else match rest with
              | [] => .error ⟨b, position, 3, .truncated⟩
              | b₄ :: rest =>
                if !isContinuation b₄ then .error ⟨b, position, 3, .continuation⟩
                else
                  decodeFrom (position + 4)
                    (Char.ofNat (extend (extend (extend (b.toNat % 8) b₂) b₃) b₄) :: read) rest

/-- The text that the bytes write down. -/
def decode (bytes : List UInt8) : Except Utf8Error (List Char) := decodeFrom 0 [] bytes

/-- The bytes that write characters down. -/
def encode (text : List Char) : List UInt8 := text.flatMap String.utf8EncodeChar

/-- Bytes write down one text only. -/
theorem encode_inj {text other : List Char} (h : encode text = encode other) : text = other := by
  have hbytes : (String.ofList text).toByteArray = (String.ofList other).toByteArray := by
    rw [String.toByteArray_ofList, String.toByteArray_ofList]
    exact congrArg List.toByteArray h
  exact String.ofList_injective (String.toByteArray_inj.mp hbytes)

/-- Writes on at code point number `position`; `before` holds the characters before it, last one
first. -/
def encodeFrom (position : Nat) (before : List Char) :
    List CodePoint → Except SurrogateError (List UInt8)
  | [] => .ok (encode before.reverse)
  | .char c :: rest => encodeFrom (position + 1) (c :: before) rest
  | .surrogate s :: rest =>
    .error ⟨s, position, (rest.takeWhile CodePoint.isSurrogate).length + 1⟩

/-- The byte-order mark. -/
def mark : List UInt8 := [0xEF, 0xBB, 0xBF]

/-- The text of a file. One leading mark is dropped and not counted in positions; a file that ends
inside the mark has no text. -/
def decodeFile (bytes : List UInt8) : Except Utf8Error (List Char) :=
  if bytes.length < 3 && bytes.isPrefixOf mark then .ok []
  else if mark.isPrefixOf bytes then decode (bytes.drop 3)
  else decode bytes

end Utf8

/-- The bytes that write a text down. -/
def utf8 (text : Text) : Except SurrogateError (List UInt8) := Utf8.encodeFrom 0 [] text.toList

/-- How a code point is shown where nothing must fail: a surrogate as an escape with its number. -/
def showPoint : CodePoint → List Char
  | .char c => [c]
  | .surrogate s => '\\' :: 'u' :: Nat.toDigits 16 s.code

/-- The characters that show a text. -/
def shown (text : Text) : String := String.ofList (text.toList.flatMap showPoint)

/-- A text without surrogates. -/
def SurrogateFree (text : Text) : Prop := ∀ c ∈ text.toList, c.isSurrogate = false

instance (text : Text) : Decidable text.SurrogateFree :=
  inferInstanceAs (Decidable (∀ c ∈ text.toList, c.isSurrogate = false))

/-- Replaces the line ends CR LF and CR by LF; `read` holds what is done, last character first. -/
def unifyLineEndsFrom (read : List CodePoint) : List CodePoint → List CodePoint
  | [] => read.reverse
  | .char '\r' :: .char '\n' :: rest => unifyLineEndsFrom (.char '\n' :: read) rest
  | .char '\r' :: rest => unifyLineEndsFrom (.char '\n' :: read) rest
  | c :: rest => unifyLineEndsFrom (c :: read) rest

/-- A text whose lines all end in LF. -/
def unifyLineEnds (text : List CodePoint) : List CodePoint := unifyLineEndsFrom [] text

end RecordRegistry.Text
