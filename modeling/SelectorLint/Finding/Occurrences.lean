import SelectorLint.Finding

/-!
# Occurrences of class selectors

A run remembers the latest occurrence of every class selector, as the finding that
would report it. A further occurrence is paired with that one and takes its place.
-/

namespace SelectorLint

/-- The occurrences of class selectors, latest first. -/
structure Occurrences where
  /-- Each selector with the finding for its occurrence, latest first. -/
  entries : List (List Char × Finding) := []
  deriving DecidableEq, Repr

namespace Occurrences

/-- The latest occurrence of a selector. -/
def latest? (occurrences : Occurrences) (selector : List Char) : Option Finding :=
  occurrences.entries.lookup selector

/-- Makes a finding the latest occurrence of a selector. -/
def put (occurrences : Occurrences) (selector : List Char) (finding : Finding) : Occurrences :=
  ⟨(selector, finding) :: occurrences.entries⟩

end Occurrences

end SelectorLint
