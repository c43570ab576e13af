import SelectorLint.Stylesheet.Position

/-!
# Preludes

A prelude is the selector text in front of a rule's opening brace, together with
the stretch of the stylesheet that it is reported at.
-/

namespace SelectorLint.Stylesheet

/-- A stretch of one stylesheet. -/
structure Span where
  /-- The stylesheet, by the name it was given. -/
  file : String
  /-- Where the stretch begins. -/
  first : Position
  /-- Where the stretch ends. -/
  last : Position
  deriving DecidableEq, Repr

/-- A span as written in findings: `file:line:column-line:column`. -/
def Span.render (span : Span) : String :=
  span.file ++ ":" ++ span.first.render ++ "-" ++ span.last.render

/-- The selector text in front of an opening brace. -/
structure Prelude where
  /-- The text, without comments and without blanks at its ends. -/
  text : List Char
  /-- Where the text is reported. -/
  span : Span
  deriving DecidableEq, Repr

end SelectorLint.Stylesheet
