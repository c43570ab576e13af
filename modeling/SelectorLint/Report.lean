import SelectorLint.Finding
import SelectorLint.Report.Json

/-!
# Reports

A report is the outcome of a run: its findings in the order of their lines and the
number of stylesheets. As text it is one line for each finding and a summary line; as
JSON it is an array with one object for each finding.
-/

namespace SelectorLint

open Stylesheet

/-- The outcome of a run. -/
structure Report where
  /-- The findings, in the order of their lines. -/
  findings : List Finding := []
  /-- The number of stylesheets. -/
  sheets : Nat := 0
  deriving DecidableEq, Repr

/-- Terminal colors. Each puts a text between the code that switches it on and the
    code that switches it off. -/
inductive Color where
  /-- Red letters. -/
  | red
  /-- Yellow letters. -/
  | yellow
  /-- Blue letters. -/
  | blue
  /-- Faint letters. -/
  | dimmed
  /-- Bold letters. -/
  | bold
  deriving DecidableEq, Repr

namespace Color

/-- The numbers that switch a color on and off. -/
def codes : Color → String × String
  | red => ("31", "39")
  | yellow => ("33", "39")
  | blue => ("34", "39")
  | dimmed => ("2", "0")
  | bold => ("1", "0")

/-- A text in a color, or as it is when colors are off. -/
def paint (color : Color) (enabled : Bool) (text : String) : String :=
  if enabled then
    "\x1b[" ++ color.codes.1 ++ "m" ++ text ++ "\x1b[" ++ color.codes.2 ++ "m"
  else text

end Color

/-- A finding as JSON. -/
def Finding.toJson (finding : Finding) : Report.Json :=
  .object
    [("file".toList, .string finding.span.file.toList),
     ("start".toList, position finding.span.first),
     ("end".toList, position finding.span.last),
     ("message".toList, .string finding.problem.text.toList),
     ("rendered".toList, .string finding.line.toList)]
where
  /-- A position as JSON. -/
  position (position : Position) : Report.Json :=
    .object [("line".toList, .number position.line), ("column".toList, .number position.column)]

namespace Report

/-- Whether a run had no finding. -/
def isClean (report : Report) : Bool := report.findings.isEmpty

/-- The lines of the findings, in order. -/
def lines (report : Report) : List String := report.findings.map Finding.line

/-- A count and its noun, which takes an `s` unless the count is one. -/
def counted (count : Nat) (noun : String) : String :=
  count.repr ++ " " ++ (if count = 1 then noun else noun ++ "s")

/-- The line that ends a text report. -/
def summary (report : Report) : String :=
  counted report.findings.length "problem" ++ " in " ++ counted report.sheets "file"

/-- One finding of a text report. -/
def textLine (color : Bool) (finding : Finding) : String :=
  Color.dimmed.paint color finding.span.render ++ " - "
    ++ Color.red.paint color finding.problem.text

/-- A report as text. -/
def toText (report : Report) (color : Bool) : String :=
  String.join ((report.findings.map (textLine color) ++ [report.summary]).map (· ++ "\n"))

/-- A report as JSON. -/
def toJson (report : Report) : String :=
  (Json.array (report.findings.map Finding.toJson)).document

end Report

end SelectorLint
