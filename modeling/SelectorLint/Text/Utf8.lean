/-!
# Reading UTF-8

Bytes are read one at a time. A sequence that is cut short, or that no character
has, is one flaw: it covers the longest stretch of bytes that could have begun
a character, and at least one byte. Strict reading refuses a text with a flaw;
lenient reading writes the replacement character for each flaw.
-/

namespace SelectorLint.Text

/-- The contents of a file, or the name of one. -/
abbrev Bytes := List UInt8

namespace Utf8

/-- A character that has begun: how many bytes it still needs, which values its
    next byte may have, and the bits collected from the bytes read so far. -/
structure Pending where
  /-- Bytes still needed. -/
  owed : Nat
  /-- The least value of the next byte. -/
  low : UInt8
  /-- The greatest value of the next byte. -/
  high : UInt8
  /-- The bits collected so far. -/
  bits : Nat
  deriving DecidableEq, Repr

/-- What has been read: a character that may have begun, and the characters and
    flaws before it, latest first. A flaw is `none`. -/
structure Progress where
  /-- The character that has begun, if any. -/
  pending : Option Pending := none
  /-- Characters and flaws already complete, latest first. -/
  pieces : List (Option Char) := []

/-- The longest first bytes of a character, by the ranges of their next byte.
    The narrow ranges after 0xE0, 0xED, 0xF0 and 0xF4 leave out the overlong
    forms, the surrogates and the numbers beyond the last code point. -/
def Pending.ofFirst? (byte : UInt8) : Option Pending :=
  let value := byte.toNat
  if 0xC2 ≤ value ∧ value ≤ 0xDF then some ⟨1, 0x80, 0xBF, value - 0xC0⟩
  else if value = 0xE0 then some ⟨2, 0xA0, 0xBF, 0⟩
  else if value = 0xED then some ⟨2, 0x80, 0x9F, 0xD⟩
  else if 0xE1 ≤ value ∧ value ≤ 0xEF then some ⟨2, 0x80, 0xBF, value - 0xE0⟩
  else if value = 0xF0 then some ⟨3, 0x90, 0xBF, 0⟩
  else if 0xF1 ≤ value ∧ value ≤ 0xF3 then some ⟨3, 0x80, 0xBF, value - 0xF0⟩
  else if value = 0xF4 then some ⟨3, 0x80, 0x8F, 4⟩
  else none

/-- Reads a byte between two characters. -/
def Progress.first (progress : Progress) (byte : UInt8) : Progress :=
  if byte.toNat < 0x80 then ⟨none, some (Char.ofNat byte.toNat) :: progress.pieces⟩
  else
    match Pending.ofFirst? byte with
    | some pending => ⟨some pending, progress.pieces⟩
    | none => ⟨none, none :: progress.pieces⟩

/-- Reads a byte. A byte that cannot continue the character that has begun ends
    it as a flaw and is then read as a first byte itself. -/
def Progress.next (progress : Progress) (byte : UInt8) : Progress :=
  match progress.pending with
  | none => progress.first byte
  | some pending =>
    if pending.low ≤ byte ∧ byte ≤ pending.high then
      let bits := pending.bits * 64 + byte.toNat % 64
      if pending.owed = 1 then ⟨none, some (Char.ofNat bits) :: progress.pieces⟩
      else ⟨some ⟨pending.owed - 1, 0x80, 0xBF, bits⟩, progress.pieces⟩
    else Progress.first ⟨none, none :: progress.pieces⟩ byte

/-- The characters and flaws of a byte sequence, in order. -/
def pieces (bytes : Bytes) : List (Option Char) :=
  let progress := bytes.foldl Progress.next {}
  match progress.pending with
  | none => progress.pieces.reverse
  | some _ => (none :: progress.pieces).reverse

/-- The text of a byte sequence without flaws. -/
def decode? (bytes : Bytes) : Option (List Char) := (pieces bytes).mapM id

/-- The text of any byte sequence, with U+FFFD for each flaw. -/
def decodeLossy (bytes : Bytes) : List Char := (pieces bytes).map (·.getD '\uFFFD')

/-- The bytes of a text. -/
def encode (text : String) : Bytes := text.toByteArray.data.toList

end Utf8

end SelectorLint.Text
