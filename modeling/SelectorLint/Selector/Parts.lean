import SelectorLint.Text.Blank

/-!
# The parts of a prelude

A prelude is divided at commas, then each part at `>`, then at `+`, at `~` and at the
plain space. Parts are trimmed before each division, so a space next to another
combinator, or at either end, divides nothing. Tabs and line ends inside a part are
never combinators.
-/

namespace SelectorLint.Selector

open Text

/-- What joins two selectors of one prelude. -/
inductive Combinator where
  /-- A comma: the selectors form a list. -/
  | list
  /-- A child of the first. -/
  | child
  /-- The sibling right after the first. -/
  | adjacentSibling
  /-- Any sibling after the first. -/
  | generalSibling
  /-- A descendant of the first. -/
  | descendant
  deriving DecidableEq, Repr

namespace Combinator

/-- Every combinator, in the order in which preludes are divided at them. -/
def all : List Combinator := [list, child, adjacentSibling, generalSibling, descendant]

/-- The character that stands for a combinator. -/
def symbol : Combinator → Char
  | list => ','
  | child => '>'
  | adjacentSibling => '+'
  | generalSibling => '~'
  | descendant => ' '

/-- The name that log records give to a combinator. -/
def name : Combinator → String
  | list => "selector list"
  | child => "child"
  | adjacentSibling => "adjacent sibling"
  | generalSibling => "general sibling"
  | descendant => "descendant"

end Combinator

/-- The parts of a prelude, and the combinators between them. -/
structure Parts where
  /-- The parts, in order. -/
  fragments : List (List Char) := []
  /-- The combinators that divided something, in the order of `Combinator.all`. -/
  combinators : List Combinator := []
  deriving DecidableEq, Repr

namespace Parts

/-- Trims every part and divides it at one more combinator. -/
def divide (parts : Parts) (combinator : Combinator) : Parts :=
  let pieces := parts.fragments.map fun fragment => (trim fragment).splitOn combinator.symbol
  { fragments := pieces.flatten
    combinators :=
      if pieces.any (·.length > 1) then parts.combinators ++ [combinator]
      else parts.combinators }

/-- Divides a text at every combinator in turn. Empty parts are left out. -/
def ofText (text : List Char) : Parts :=
  let parts := Combinator.all.foldl divide { fragments := [text] }
  { parts with fragments := (parts.fragments.map trim).filter (! ·.isEmpty) }

end Parts

end SelectorLint.Selector
