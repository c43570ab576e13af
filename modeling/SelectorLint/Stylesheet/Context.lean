/-!
# Lexical contexts

Reading a stylesheet goes through nested contexts. A quoted string or a comment
can interrupt anything; an at-rule can stand at the top level or in the body of a
rule; the body of a rule stands at the top level only.
-/

namespace SelectorLint.Stylesheet

/-- At-rules whose text is skipped, by what ends them. -/
inductive AtRule where
  /-- Ends with the first semicolon. -/
  | statement
  /-- Ends with the brace that opens its block. -/
  | header
  /-- Ends with the first closing brace. -/
  | definition
  /-- Ends when as many braces have closed as have opened, and one has. -/
  | keyframes (opened closed : Nat)
  deriving DecidableEq, Repr

namespace AtRule

/-- The name that log records give to the skipping of an at-rule. -/
def name : AtRule → String
  | statement => "InAtStatement"
  | header => "InAtBlock"
  | definition => "InAtDefinitionBlock"
  | keyframes _ _ => "InKeyframesBlock"

/-- The keywords that begin an at-rule to be skipped. None begins another. -/
def keywords : List (List Char × AtRule) :=
  [("@charset".toList, statement), ("@import".toList, statement),
   ("@namespace".toList, statement), ("@document".toList, header),
   ("@media".toList, header), ("@font-face".toList, definition),
   ("@page".toList, definition), ("@keyframes".toList, keyframes 0 0)]

/-- The at-rule that a token begins, if it starts with a keyword. What follows
    the keyword is not looked at. -/
def ofToken? (token : List Char) : Option AtRule :=
  (keywords.find? fun entry => entry.1.isPrefixOf token).map (·.2)

/-- The at-rule after one more character, or nothing when that character ends it. -/
def advance? : AtRule → Char → Option AtRule
  | statement, c => if c = ';' then none else some statement
  | header, c => if c = '{' then none else some header
  | definition, c => if c = '}' then none else some definition
  | keyframes opened closed, c =>
    let opened := if c = '{' then opened + 1 else opened
    let closed := if c = '}' then closed + 1 else closed
    if 0 < opened ∧ opened = closed then none else some (keyframes opened closed)

end AtRule

/-- What the character being read is part of. The top level is no context: it is
    what remains when every context has been left. -/
inductive Context where
  /-- A string, with the quote that opened it. -/
  | quoted (quote : Char)
  /-- A comment, with the byte offset of its opener in the token. -/
  | comment (start : Nat)
  /-- An at-rule being skipped. -/
  | atRule (rule : AtRule)
  /-- The declarations of a rule. -/
  | ruleBody
  deriving DecidableEq, Repr

end SelectorLint.Stylesheet
