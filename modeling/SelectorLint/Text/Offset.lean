/-!
# Byte offsets into character lists

Text is handled as a list of characters, while an offset into a token counts
the bytes of its UTF-8 encoding. Cutting at an offset succeeds exactly when the
offset falls between two characters.
-/

namespace SelectorLint.Text

/-- The number of bytes in the UTF-8 encoding of a text. -/
def byteLength : List Char → Nat
  | [] => 0
  | c :: rest => c.utf8Size + byteLength rest

/-- The parts of a text before and after a byte offset. There is no answer when
    the offset lies inside a character or beyond the end. -/
def splitAtByte? : Nat → List Char → Option (List Char × List Char)
  | 0, text => some ([], text)
  | _ + 1, [] => none
  | offset + 1, c :: rest =>
    if c.utf8Size ≤ offset + 1 then
      (splitAtByte? (offset + 1 - c.utf8Size) rest).map fun parts => (c :: parts.1, parts.2)
    else none

/-- The length of two texts written one after the other is the sum of theirs. -/
@[simp]
theorem byteLength_append (first second : List Char) :
    byteLength (first ++ second) = byteLength first + byteLength second := by
  induction first with
  | nil => rw [List.nil_append, byteLength, Nat.zero_add]
  | cons c rest inductionHypothesis =>
    rw [List.cons_append, byteLength, byteLength, inductionHypothesis, Nat.add_assoc]

/-- Cutting at the length of a first part gives back both parts. -/
theorem splitAtByte?_append (first second : List Char) :
    splitAtByte? (byteLength first) (first ++ second) = some (first, second) := by
  induction first with
  | nil => rw [byteLength, splitAtByte?, List.nil_append]
  | cons c rest inductionHypothesis =>
    have positive : 0 < c.utf8Size := Char.utf8Size_pos c
    have length : byteLength (c :: rest) = (c.utf8Size - 1 + byteLength rest) + 1 := by
      rw [byteLength]
      omega
    have remaining : c.utf8Size - 1 + byteLength rest + 1 - c.utf8Size = byteLength rest := by
      omega
    rw [length, List.cons_append, splitAtByte?, if_pos (by omega), remaining,
      inductionHypothesis]
    rfl

end SelectorLint.Text
