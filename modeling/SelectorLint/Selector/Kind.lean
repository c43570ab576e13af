/-!
# Kinds of selectors

What remains between combinators is of one kind as a whole. A hash anywhere makes it an
id selector; otherwise its first character decides. Compounds are not taken apart:
`.a.b` is one class selector.
-/

namespace SelectorLint.Selector

/-- The kinds of selectors. -/
inductive Kind where
  /-- Holds a hash. -/
  | id
  /-- Begins with a dot. -/
  | cssClass
  /-- Begins with a colon. -/
  | pseudoClass
  /-- Anything else. -/
  | element
  deriving DecidableEq, Repr

namespace Kind

/-- The name of a kind. -/
def name : Kind → String
  | id => "id"
  | cssClass => "class"
  | pseudoClass => "pseudo-class"
  | element => "element"

/-- The kind of a selector without combinators. -/
def ofText (text : List Char) : Kind :=
  if '#' ∈ text then .id
  else if text.head? = some '.' then .cssClass
  else if text.head? = some ':' then .pseudoClass
  else .element

end Kind

end SelectorLint.Selector
