/-!
# Positions in a stylesheet

A position names the last character read. Before the first character it is
line 1, column 0, so the columns of the first line count from 1. A line feed
moves to column 1 of the next line, so the first character of every later line
stands in column 2. Spans are built on this count.
-/

namespace SelectorLint.Stylesheet

/-- A line and a column of a stylesheet. -/
structure Position where
  /-- The line, counted from 1. -/
  line : Nat
  /-- The column, as `Position.advance` counts it. -/
  column : Nat
  deriving DecidableEq, Repr

namespace Position

/-- The position before the first character. -/
def start : Position := ⟨1, 0⟩

/-- The position after one more character. -/
def advance (position : Position) (c : Char) : Position :=
  if c = '\n' then ⟨position.line + 1, 1⟩ else ⟨position.line, position.column + 1⟩

/-- The position after a whole text. -/
def after (text : List Char) : Position := text.foldl advance start

/-- The fresh position, then the position after each character in turn. -/
def trail (text : List Char) : List Position := go start text
where
  /-- The trail from a given position on. -/
  go (position : Position) : List Char → List Position
    | [] => [position]
    | c :: rest => position :: go (position.advance c) rest

/-- The end of a prelude whose opening brace stands at this position: two columns
    to the left, and column 0 where there are not that many. -/
def beforeBrace (position : Position) : Position := ⟨position.line, position.column - 2⟩

/-- Document order: by line, then by column. -/
instance : LT Position where
  lt p q := p.line < q.line ∨ p.line = q.line ∧ p.column < q.column

/-- Document order, or the same position. -/
instance : LE Position where
  le p q := p.line < q.line ∨ p.line = q.line ∧ p.column ≤ q.column

instance (p q : Position) : Decidable (p < q) :=
  inferInstanceAs (Decidable (_ ∨ _))

instance (p q : Position) : Decidable (p ≤ q) :=
  inferInstanceAs (Decidable (_ ∨ _))

/-- A position as written in findings: `line:column`. -/
def render (position : Position) : String :=
  position.line.repr ++ ":" ++ position.column.repr

end Position

end SelectorLint.Stylesheet
