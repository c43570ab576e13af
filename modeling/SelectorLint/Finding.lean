import SelectorLint.Selector.Parts
import SelectorLint.Stylesheet.Prelude

/-!
# Findings

A finding says what is wrong with the prelude at a span. Its line is what editors
and other tools read; the spellings in it are fixed.
-/

namespace SelectorLint

open Stylesheet

/-- What can be wrong with a prelude. -/
inductive Problem where
  /-- It has an attribute selector. -/
  | attributeSelector
  /-- It joins selectors by a combinator. -/
  | combinator (combinator : Selector.Combinator)
  /-- It has an id selector. -/
  | idSelector
  /-- It has a class selector that occurs more than once in the run. -/
  | duplicateSelector (selector : List Char)
  /-- It has an element selector. -/
  | elementSelector
  deriving DecidableEq, Repr

/-- The text of a problem. -/
def Problem.text : Problem → String
  | attributeSelector => "attribute selector not allowed"
  | combinator .list => "selector list not allowed"
  | combinator .child => "child selector '>' not allowed"
  | combinator .adjacentSibling => "adjacent sibiling selector '+' not allowed"
  | combinator .generalSibling => "general sibiling selector '~' not allowed"
  | combinator .descendant => "decendant selector ' ' not allowed"
  | idSelector => "id selector '#' not allowed"
  | duplicateSelector selector => "duplicate selector '" ++ String.ofList selector ++ "'"
  | elementSelector => "element selector not allowed"

/-- A problem and where it is. -/
structure Finding where
  /-- The span of the prelude. -/
  span : Span
  /-- What is wrong with it. -/
  problem : Problem
  deriving DecidableEq, Repr

/-- The line of a finding: its span, then its text. -/
def Finding.line (finding : Finding) : String :=
  finding.span.render ++ " - " ++ finding.problem.text

end SelectorLint
