import SelectorLint.Text.Offset

/-!
# Reading characters with their offsets

A reader takes characters from the front of a text and knows the byte offset it has
reached. A reader that fails takes nothing, so the next choice starts where it did.
-/

namespace SelectorLint.Toml

/-- A stretch of a text: the byte offsets of its first byte and of the byte behind
    its last. -/
structure Extent where
  /-- The offset of the first byte. -/
  first : Nat
  /-- The offset behind the last byte. -/
  stop : Nat
  deriving DecidableEq, Repr

/-- The text that is left, and the number of bytes in front of it. -/
structure Cursor where
  /-- The characters that are left. -/
  rest : List Char
  /-- The number of bytes already taken. -/
  offset : Nat := 0

/-- A reader of a value from the front of a text. -/
abbrev Reader := StateT Cursor Option

namespace Reader

/-- The next character, which stays in the text. -/
def peek? : Reader (Option Char) := fun cursor => some (cursor.rest.head?, cursor)

/-- Takes a character of a class. -/
def satisfy (accept : Char → Bool) : Reader Char := fun cursor =>
  match cursor.rest with
  | [] => none
  | c :: rest => if accept c then some (c, ⟨rest, cursor.offset + c.utf8Size⟩) else none

/-- Takes one given character. -/
def char (expected : Char) : Reader Unit := do
  let _ ← satisfy (· == expected)

/-- Takes given characters. -/
def literal : List Char → Reader Unit
  | [] => pure ()
  | c :: rest => do
    char c
    literal rest

/-- Takes the longest run of characters of a class. -/
def takeWhile (accept : Char → Bool) : Reader (List Char) := fun cursor =>
  let taken := cursor.rest.takeWhile accept
  some (taken, ⟨cursor.rest.drop taken.length, cursor.offset + Text.byteLength taken⟩)

/-- Takes a non-empty run of characters of a class. -/
def takeWhile1 (accept : Char → Bool) : Reader (List Char) := do
  let taken ← takeWhile accept
  if taken.isEmpty then failure else pure taken

/-- Succeeds at the end of the text. -/
def atEnd : Reader Unit := fun cursor => if cursor.rest.isEmpty then some ((), cursor) else none

/-- What a reader reads, or nothing where it fails. -/
def optional (reader : Reader α) : Reader (Option α) := fun cursor =>
  match reader cursor with
  | some (value, cursor) => some (some value, cursor)
  | none => some (none, cursor)

/-- Reads at most `bound` times. -/
def manyUpTo (reader : Reader α) : Nat → Reader (List α)
  | 0 => pure []
  | bound + 1 => do
    match ← optional reader with
    | none => pure []
    | some value => return value :: (← manyUpTo reader bound)

/-- Reads as often as a reader succeeds. Each reading takes a character, so the
    characters that are left bound their number. -/
def many (reader : Reader α) : Reader (List α) := fun cursor =>
  manyUpTo reader cursor.rest.length cursor

/-- Reads a value and the stretch it was read from. -/
def withExtent (reader : Reader α) : Reader (α × Extent) := fun cursor =>
  match reader cursor with
  | some (value, next) => some ((value, ⟨cursor.offset, next.offset⟩), next)
  | none => none

/-- Reads a value and then something else that is not kept. -/
def followedBy (reader : Reader α) (tail : Reader β) : Reader α := do
  let value ← reader
  let _ ← tail
  pure value

end Reader

/-- A blank within a line. -/
def isWhite (c : Char) : Bool := c == ' ' || c == '\t'

/-- A character that may stand in a comment: no control but the tab. -/
def isCommentChar (c : Char) : Bool := c == '\t' || (' ' ≤ c && c != '\x7f')

/-- Passes over blanks within a line. -/
def white : Reader Unit := do
  let _ ← Reader.takeWhile isWhite

/-- Takes a line end: a line feed, or a carriage return and a line feed. -/
def newline : Reader Unit :=
  Reader.char '\n' <|> Reader.literal ['\r', '\n']

/-- Takes a comment up to its line end. -/
def comment : Reader Unit := do
  Reader.char '#'
  let _ ← Reader.takeWhile isCommentChar

/-- Takes what may follow the last token of a line, and the line end. -/
def lineEnd : Reader Unit := do
  white
  let _ ← Reader.optional comment
  newline <|> Reader.atEnd

/-- Passes over blanks, comments and line ends. -/
def filler : Reader Unit := do
  let _ ← Reader.many <|
    (do let _ ← Reader.satisfy isWhite) <|> newline <|> (do comment; newline)

end SelectorLint.Toml
