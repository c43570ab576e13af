/-!
# Blank characters

Blank means the Unicode property White_Space. It decides which characters may
separate tokens and which are trimmed from the ends of selector text. It is
wider than the ASCII blanks (it holds the no-break space and the ideographic
space) and excludes the zero-width space and the byte order mark.
-/

namespace SelectorLint.Text

/-- Whether a code point lies in one of the inclusive ranges of a table. -/
def inRanges (ranges : List (Nat × Nat)) (codePoint : Nat) : Bool :=
  ranges.any fun range => range.1 ≤ codePoint && codePoint ≤ range.2

/-- The inclusive code-point ranges of White_Space, in increasing order. -/
def blankRanges : List (Nat × Nat) :=
  [(0x09, 0x0D), (0x20, 0x20), (0x85, 0x85), (0xA0, 0xA0), (0x1680, 0x1680),
   (0x2000, 0x200A), (0x2028, 0x2029), (0x202F, 0x202F), (0x205F, 0x205F),
   (0x3000, 0x3000)]

/-- A character with the property White_Space. -/
def isBlank (c : Char) : Bool := inRanges blankRanges c.toNat

/-- Text without the blanks in front of it. -/
def trimStart (text : List Char) : List Char := text.dropWhile isBlank

/-- Text without the blanks behind it. -/
def trimEnd (text : List Char) : List Char := (text.reverse.dropWhile isBlank).reverse

/-- Text without the blanks at either end; blanks inside it stay. -/
def trim (text : List Char) : List Char := trimEnd (trimStart text)

end SelectorLint.Text
