import RecordRegistry.Text.Hex

/-!
# SHA-256

The digest of a byte message: the message is padded to whole blocks of sixteen words, and every
block is worked into a state of eight words in sixty-four rounds.
-/

namespace RecordRegistry.Sha256

/-- The eight words that go from round to round and from block to block. -/
structure State where
  a : UInt32
  b : UInt32
  c : UInt32
  d : UInt32
  e : UInt32
  f : UInt32
  g : UInt32
  h : UInt32
deriving DecidableEq, Repr

/-- Before the first block: the fractions of the square roots of the first eight primes. -/
def State.initial : State :=
  ⟨0x6a09e667, 0xbb67ae85, 0x3c6ef372, 0xa54ff53a, 0x510e527f, 0x9b05688c, 0x1f83d9ab, 0x5be0cd19⟩

/-- Word by word addition. -/
def State.add (s t : State) : State :=
  ⟨s.a + t.a, s.b + t.b, s.c + t.c, s.d + t.d, s.e + t.e, s.f + t.f, s.g + t.g, s.h + t.h⟩

/-- The words in order. -/
def State.words (s : State) : List UInt32 := [s.a, s.b, s.c, s.d, s.e, s.f, s.g, s.h]

/-- One word a round: the fractions of the cube roots of the first sixty-four primes. -/
def roundConstants : List UInt32 := [
    0x428a2f98, 0x71374491, 0xb5c0fbcf, 0xe9b5dba5, 0x3956c25b, 0x59f111f1, 0x923f82a4, 0xab1c5ed5,
    0xd807aa98, 0x12835b01, 0x243185be, 0x550c7dc3, 0x72be5d74, 0x80deb1fe, 0x9bdc06a7, 0xc19bf174,
    0xe49b69c1, 0xefbe4786, 0x0fc19dc6, 0x240ca1cc, 0x2de92c6f, 0x4a7484aa, 0x5cb0a9dc, 0x76f988da,
    0x983e5152, 0xa831c66d, 0xb00327c8, 0xbf597fc7, 0xc6e00bf3, 0xd5a79147, 0x06ca6351, 0x14292967,
    0x27b70a85, 0x2e1b2138, 0x4d2c6dfc, 0x53380d13, 0x650a7354, 0x766a0abb, 0x81c2c92e, 0x92722c85,
    0xa2bfe8a1, 0xa81a664b, 0xc24b8b70, 0xc76c51a3, 0xd192e819, 0xd6990624, 0xf40e3585, 0x106aa070,
    0x19a4c116, 0x1e376c08, 0x2748774c, 0x34b0bcb5, 0x391c0cb3, 0x4ed8aa4a, 0x5b9cca4f, 0x682e6ff3,
    0x748f82ee, 0x78a5636f, 0x84c87814, 0x8cc70208, 0x90befffa, 0xa4506ceb, 0xbef9a3f7, 0xc67178f2]

/-- A word turned to the right. -/
def rotate (x n : UInt32) : UInt32 := (x >>> n) ||| (x <<< (32 - n))

/-- The word that follows sixteen words of a schedule. -/
def nextWord (window : List UInt32) : UInt32 :=
  let w₁ := window.getD 1 0
  let w₁₄ := window.getD 14 0
  window.getD 0 0 + (rotate w₁ 7 ^^^ rotate w₁ 18 ^^^ (w₁ >>> 3)) +
    window.getD 9 0 + (rotate w₁₄ 17 ^^^ rotate w₁₄ 19 ^^^ (w₁₄ >>> 10))

/-- The next words of a schedule, of which `window` holds sixteen. -/
def schedule : Nat → List UInt32 → List UInt32
  | 0, _ => []
  | count + 1, window =>
    window.getD 0 0 :: schedule count (window.tail ++ [nextWord window])

/-- One round, with its constant and its word of the schedule. -/
def round (s : State) (input : UInt32 × UInt32) : State :=
  let choice := (s.e &&& s.f) ^^^ (~~~s.e &&& s.g)
  let majority := (s.a &&& s.b) ^^^ (s.a &&& s.c) ^^^ (s.b &&& s.c)
  let first :=
    s.h + (rotate s.e 6 ^^^ rotate s.e 11 ^^^ rotate s.e 25) + choice + input.1 + input.2
  let second := (rotate s.a 2 ^^^ rotate s.a 13 ^^^ rotate s.a 22) + majority
  ⟨first + second, s.a, s.b, s.c, s.d + first, s.e, s.f, s.g⟩

/-- Works one block of sixteen words into the state. -/
def compress (s : State) (block : List UInt32) : State :=
  s.add ((roundConstants.zip (schedule 64 block)).foldl round s)

/-- Works a number of blocks into the state, one after the other. -/
def compressBlocks : Nat → State → List UInt32 → State
  | 0, s, _ => s
  | count + 1, s, words => compressBlocks count (compress s (words.take 16)) (words.drop 16)

/-- The bytes of a number below `256 ^ count`, most significant first. -/
def bigEndian : Nat → Nat → List UInt8
  | 0, _ => []
  | count + 1, n => bigEndian count (n / 256) ++ [UInt8.ofNat n]

/-- Four bytes to a word, most significant first. -/
def toWords : List UInt8 → List UInt32
  | a :: b :: c :: d :: rest =>
    (a.toUInt32 <<< 24 ||| b.toUInt32 <<< 16 ||| c.toUInt32 <<< 8 ||| d.toUInt32) :: toWords rest
  | _ => []

/-- A message, a one bit, zeros up to eight bytes before the end of a block, and the number of bits
of the message in these eight bytes. -/
def pad (message : List UInt8) : List UInt8 :=
  let zeros := (119 - message.length % 64) % 64
  message ++ 0x80 :: List.replicate zeros 0 ++ bigEndian 8 (8 * message.length)

/-- The digest of a message. -/
def digest (message : List UInt8) : List UInt32 :=
  let words := toWords (pad message)
  (compressBlocks (words.length / 16) State.initial words).words

/-- The digest in base sixteen. -/
def hexDigest (message : List UInt8) : Text :=
  Text.ofList ((digest message).flatMap fun word => Text.hex 8 word.toNat)

theorem flatMap_hex_inj {words others : List UInt32}
    (h : (words.flatMap fun word => Text.hex 8 word.toNat) =
      others.flatMap fun word => Text.hex 8 word.toNat) : words = others := by
  have hlength (word : UInt32) : (Text.hex 8 word.toNat).length = 8 :=
    Text.length_hex (by decide) word.toNat_lt
  induction words generalizing others with
  | nil =>
      cases others with
      | nil => rfl
      | cons word others =>
          have hzero := congrArg List.length h.symm
          simp [hlength word] at hzero
  | cons word words ih =>
      cases others with
      | nil =>
          have hzero := congrArg List.length h
          simp [hlength word] at hzero
      | cons other others =>
          rw [List.flatMap_cons, List.flatMap_cons] at h
          rcases List.append_inj h ((hlength word).trans (hlength other).symm) with ⟨hhex, h⟩
          have hvalue := congrArg Text.ofHex? hhex
          rw [Text.ofHex?_hex, Text.ofHex?_hex] at hvalue
          rw [UInt32.toNat_inj.mp (Option.some.inj hvalue), ih h]

/-- A digest is known by its digits. -/
theorem hexDigest_eq_iff (message other : List UInt8) :
    hexDigest message = hexDigest other ↔ digest message = digest other := by
  constructor
  · intro h
    exact flatMap_hex_inj (Text.ofList.inj h)
  · intro h
    rw [hexDigest, hexDigest, h]

end RecordRegistry.Sha256
