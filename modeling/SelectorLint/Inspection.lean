import SelectorLint.Finding.Collection
import SelectorLint.Finding.Occurrences
import SelectorLint.Log.Logged
import SelectorLint.Selector.Kind
import SelectorLint.Selector.Stripped
import SelectorLint.Stylesheet.Machine

/-!
# Inspecting stylesheets

An inspection holds what the stylesheets of one run share: the latest occurrence of
each class selector and the findings so far. A rule should be headed by one class
selector or by pseudo-classes alone; everything else in a prelude is a finding, and so
is every occurrence of a class selector that occurs again.
-/

namespace SelectorLint

open Log Selector Stylesheet

/-- The state of a run over stylesheets. -/
structure Inspection where
  /-- The latest occurrence of each class selector. -/
  occurrences : Occurrences := {}
  /-- The findings so far. -/
  findings : Collection := {}
  /-- The number of stylesheets read. -/
  sheets : Nat := 0
  /-- The number of preludes examined. -/
  preludes : Nat := 0
  deriving DecidableEq, Repr

namespace Inspection

/-- Adds a finding. -/
def flag (inspection : Inspection) (span : Span) (problem : Problem) : Inspection :=
  { inspection with findings := inspection.findings.insertIfNew ⟨span, problem⟩ }

/-- Notes an occurrence of a class selector. From the second occurrence on, it and the
    occurrence before it are findings. -/
def noteClass (inspection : Inspection) (span : Span) (selector : List Char) :
    Logged Inspection := do
  let occurrence : Finding := ⟨span, .duplicateSelector selector⟩
  let noted :=
    { inspection with occurrences := inspection.occurrences.put selector occurrence }
  match inspection.occurrences.latest? selector with
  | none => return noted
  | some previous =>
    Logged.note (.redefined selector span)
    return { noted with
      findings := (noted.findings.insertIfNew previous).insertIfNew occurrence }

/-- Examines one part of a prelude. -/
def examineFragment (span : Span) (inspection : Inspection) (selector : List Char) :
    Logged Inspection := do
  let kind := Kind.ofText selector
  Logged.note (.classified span selector kind)
  match kind with
  | .id => return inspection.flag span .idSelector
  | .cssClass => inspection.noteClass span selector
  | .pseudoClass => return inspection
  | .element => return inspection.flag span .elementSelector

/-- Flags one combinator of a prelude. -/
def examineCombinator (head : Prelude) (inspection : Inspection) (combinator : Combinator) :
    Logged Inspection := do
  Logged.note (.combinatorFound head combinator)
  return inspection.flag head.span (.combinator combinator)

/-- Examines a prelude: its attribute selectors, then its combinators, then the parts
    between them. -/
def examine (inspection : Inspection) (head : Prelude) : Logged Inspection := do
  let counted := { inspection with preludes := inspection.preludes + 1 }
  let stripped := strip head.text
  let flagged :=
    if stripped.hasAttribute then counted.flag head.span .attributeSelector else counted
  let parts := Parts.ofText stripped.text
  let joined ← parts.combinators.foldlM (examineCombinator head) flagged
  parts.fragments.foldlM (examineFragment head.span) joined

/-- The event of an emission. -/
def emissionEvent (file : String) : Emission → Event
  | .opened head => .preludeFound head
  | .skipped rule token => .atRuleSkipped file rule token

/-- Takes in one emission of a stylesheet. -/
def take (file : String) (inspection : Inspection) (emission : Emission) :
    Logged Inspection := do
  Logged.note (emissionEvent file emission)
  match emission.prelude? with
  | some head => inspection.examine head
  | none => return inspection

/-- Reads a stylesheet and examines its preludes in order. -/
def readSheet (inspection : Inspection) (file : String) (text : List Char) :
    Logged Inspection := do
  Logged.note (.scanning file)
  let counted := { inspection with sheets := inspection.sheets + 1 }
  (emissions file text).foldlM (take file) counted

/-- Ends a run and gives its findings in the order of their lines. -/
def conclude (inspection : Inspection) : Logged (List Finding) := do
  Logged.note (.finished inspection.findings.size inspection.preludes inspection.sheets)
  return inspection.findings.toList

end Inspection

/-- The findings of stylesheets, each a name and a text, read in one run. -/
def inspect (sheets : List (String × List Char)) : Logged (List Finding) := do
  let inspection ← sheets.foldlM (fun inspection sheet => inspection.readSheet sheet.1 sheet.2)
    ({} : Inspection)
  inspection.conclude

end SelectorLint
