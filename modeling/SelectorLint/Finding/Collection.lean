import SelectorLint.Finding
import SelectorLint.Text.Utf8

/-!
# Collections of findings

The findings of a run are told apart by their lines. The first finding with a line
stays; findings come out in the order of the UTF-8 bytes of their lines, so line
10 of a stylesheet comes before line 9.
-/

namespace SelectorLint

open Text

/-- Whether a line comes before another by the bytes of their UTF-8 encoding. -/
def lineBefore (first second : String) : Bool :=
  decide (Utf8.encode first < Utf8.encode second)

/-- Findings with their lines, in the order of the lines. -/
structure Collection where
  /-- Each finding after its line. -/
  entries : List (String × Finding) := []
  deriving DecidableEq, Repr

namespace Collection

/-- Whether a finding with this line is present. -/
def contains (collection : Collection) (line : String) : Bool :=
  collection.entries.any (·.1 == line)

/-- Puts a finding at its place among entries in order. An entry with the same
    line stays as it is. -/
def place (line : String) (finding : Finding) : List (String × Finding) → List (String × Finding)
  | [] => [(line, finding)]
  | entry :: rest =>
    if lineBefore line entry.1 then (line, finding) :: entry :: rest
    else if line = entry.1 then entry :: rest
    else entry :: place line finding rest

/-- Adds a finding unless one with the same line is present. -/
def insertIfNew (collection : Collection) (finding : Finding) : Collection :=
  ⟨place finding.line finding collection.entries⟩

/-- Whether a finding with the same line was present, and the collection with the
    finding added unless it was. -/
def containsThenInsertIfNew (collection : Collection) (finding : Finding) : Bool × Collection :=
  (collection.contains finding.line, collection.insertIfNew finding)

/-- The number of findings. -/
def size (collection : Collection) : Nat := collection.entries.length

/-- Whether there is no finding. -/
def isEmpty (collection : Collection) : Bool := collection.entries.isEmpty

/-- The lines of the findings, in order. -/
def lines (collection : Collection) : List String := collection.entries.map (·.1)

/-- The findings, in the order of their lines. -/
def toList (collection : Collection) : List Finding := collection.entries.map (·.2)

end Collection

end SelectorLint
