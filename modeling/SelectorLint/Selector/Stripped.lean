/-!
# Taking bracketed parts out of a prelude

Attribute selectors, the arguments of pseudo-classes and quoted text are taken
out of a prelude before it is split. Arguments may stand anywhere and leave no
trace; attribute selectors are counted.

Brackets do not nest within their own kind: the first closing bracket of a kind
closes it. A quote opens a string also inside brackets, and a square bracket
opens inside parentheses. Whatever is not closed runs to the end of the text.
-/

namespace SelectorLint.Selector

/-- What the next character of a prelude stands in. -/
structure Enclosure where
  /-- The quote of the open string, if one is open. -/
  quote : Option Char := none
  /-- Whether the open string has just shown a backslash that is in force. -/
  escaping : Bool := false
  /-- Whether a square bracket is open. -/
  square : Bool := false
  /-- Whether a parenthesis is open. -/
  paren : Bool := false
  deriving DecidableEq, Repr

/-- What becomes of a character of a prelude. -/
inductive Fate where
  /-- It stays in the text. -/
  | kept
  /-- It is taken out. -/
  | dropped
  /-- It is taken out and opens an attribute selector. -/
  | opensAttribute
  deriving DecidableEq, Repr

/-- Reads a character: what the next one stands in, and what becomes of this one. -/
def Enclosure.read (enclosure : Enclosure) (c : Char) : Enclosure × Fate :=
  match enclosure.quote with
  | some quote =>
    if enclosure.escaping then ({ enclosure with escaping := false }, .dropped)
    else if c = '\\' then ({ enclosure with escaping := true }, .dropped)
    else if c = quote then ({ enclosure with quote := none }, .dropped)
    else (enclosure, .dropped)
  | none =>
    if c = '\x22' ∨ c = '\x27' then ({ enclosure with quote := some c }, .dropped)
    else if enclosure.square then
      (if c = ']' then { enclosure with square := false } else enclosure, .dropped)
    else if c = '[' then ({ enclosure with square := true }, .opensAttribute)
    else if enclosure.paren then
      (if c = ')' then { enclosure with paren := false } else enclosure, .dropped)
    else if c = '(' then ({ enclosure with paren := true }, .dropped)
    else (enclosure, .kept)

/-- A prelude without its bracketed parts. -/
structure Stripped where
  /-- The characters that stay. -/
  text : List Char := []
  /-- The number of attribute selectors taken out. -/
  attributes : Nat := 0
  deriving DecidableEq, Repr

/-- Takes the bracketed parts out of the rest of a prelude. -/
def stripFrom (enclosure : Enclosure) : List Char → Stripped
  | [] => {}
  | c :: rest =>
    let reading := enclosure.read c
    let stripped := stripFrom reading.1 rest
    match reading.2 with
    | .kept => { stripped with text := c :: stripped.text }
    | .dropped => stripped
    | .opensAttribute => { stripped with attributes := stripped.attributes + 1 }

/-- Takes the bracketed parts out of a prelude. -/
def strip (text : List Char) : Stripped := stripFrom {} text

/-- Whether an attribute selector was taken out. -/
def Stripped.hasAttribute (stripped : Stripped) : Bool :=
  stripped.attributes > 0

end SelectorLint.Selector
