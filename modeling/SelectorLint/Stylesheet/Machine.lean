import SelectorLint.Stylesheet.Context
import SelectorLint.Stylesheet.Prelude
import SelectorLint.Text.Blank
import SelectorLint.Text.Offset

/-!
# Finding preludes

A machine reads a stylesheet one character at a time. It collects a token and
keeps the contexts that it is in. Comments are cut out of the token, strings stay
in it, at-rules and declarations are passed over. A brace that opens at the top
level ends a prelude.

Reading never fails. A string, comment or block that is not closed runs to the end
of the text. A closing brace that is a whole token is passed over in every context,
so an empty body stays open and the rule after it is read as declarations.
-/

namespace SelectorLint.Stylesheet

open Text

/-- What one character can bring to an end. -/
inductive Emission where
  /-- The prelude of a rule, ended by the brace that opens the rule. -/
  | opened (head : Prelude)
  /-- An at-rule that was passed over, with its text. -/
  | skipped (rule : AtRule) (token : List Char)
  deriving DecidableEq, Repr

/-- The state between two characters of a stylesheet. -/
structure Machine where
  /-- The name used in spans. -/
  file : String
  /-- The contexts, innermost first. -/
  stack : List Context := []
  /-- The characters since the last token boundary, without comments. -/
  token : List Char := []
  /-- The position of the last character. -/
  position : Position := .start
  /-- The position of the last token boundary. -/
  tokenStart : Position := ⟨1, 1⟩
  deriving DecidableEq, Repr

namespace Machine

/-- Counts a character and puts it at the end of the token. -/
def take (machine : Machine) (c : Char) : Machine :=
  { machine with
    position := machine.position.advance c
    token := machine.token ++ [c] }

/-- Goes into a context. -/
def enter (machine : Machine) (context : Context) : Machine :=
  { machine with stack := context :: machine.stack }

/-- Begins a new token behind the last character. -/
def cut (machine : Machine) : Machine :=
  { machine with token := [], tokenStart := machine.position }

/-- Whether the last character of the token follows a backslash. -/
def escaped (machine : Machine) : Bool := machine.token.dropLast.getLast? == some '\\'

/-- The rest of the text of a comment after its two-character opener, and the token
    in front of it. -/
def comment? (machine : Machine) (start : Nat) : Option (List Char × List Char) :=
  (splitAtByte? start machine.token).map fun parts => (parts.1, parts.2.drop 2)

/-- Reads a character of a string: the quote that opened it ends it, unless that
    quote directly follows a backslash. -/
def readQuoted (machine : Machine) (quote c : Char) (outer : List Context) : Machine :=
  if c = quote ∧ machine.escaped = false then { machine with stack := outer } else machine

/-- Reads a character of a comment. The closer ends with a slash and must stand behind
    the opener; it takes the whole comment out of the token. -/
def readComment (machine : Machine) (start : Nat) (c : Char) (outer : List Context) : Machine :=
  if c = '/' then
    match machine.comment? start with
    | some (before, body) =>
      if ['*', '/'].isSuffixOf body then { machine with token := before, stack := outer }
      else machine
    | none => machine
  else machine

/-- The prelude in front of the brace just read. -/
def head (machine : Machine) : Prelude where
  text := trim machine.token.dropLast
  span := ⟨machine.file, machine.tokenStart, machine.position.beforeBrace⟩

/-- Reads a character that belongs to no string or comment and that is not a token
    boundary by itself. -/
def readPlain (machine : Machine) (c : Char) : Machine × Option Emission :=
  match machine.stack with
  | .atRule rule :: outer =>
    match rule.advance? c with
    | some rule => ({ machine with stack := .atRule rule :: outer }, none)
    | none => ({ machine with stack := outer }.cut, some (.skipped rule machine.token))
  | .ruleBody :: outer =>
    match AtRule.ofToken? machine.token with
    | some rule => (machine.enter (.atRule rule), none)
    | none => if c = '}' then ({ machine with stack := outer }.cut, none) else (machine, none)
  | [] =>
    match AtRule.ofToken? machine.token with
    | some rule => (machine.enter (.atRule rule), none)
    | none =>
      if c = '{' then ((machine.enter .ruleBody).cut, some (.opened machine.head))
      else (machine, none)
  | _ => (machine, none)

/-- Reads a character outside strings and comments. A quote opens a string and the
    two characters of an opener a comment. A blank, or a closing brace, that is all
    of the token is passed over. -/
def readOpen (machine : Machine) (c : Char) : Machine × Option Emission :=
  if c = '\x22' ∨ c = '\x27' then (machine.enter (.quoted c), none)
  else if c = '*' ∧ ['/', '*'].isSuffixOf machine.token then
    (machine.enter (.comment (byteLength machine.token - 2)), none)
  else if isBlank c ∧ machine.token = [c] then (machine.cut, none)
  else if machine.token = ['}'] then (machine.cut, none)
  else machine.readPlain c

/-- Reads one character. -/
def step (machine : Machine) (c : Char) : Machine × Option Emission :=
  let machine := machine.take c
  match machine.stack with
  | .quoted quote :: outer => (machine.readQuoted quote c outer, none)
  | .comment start :: outer => (machine.readComment start c outer, none)
  | _ => machine.readOpen c

/-- Reads one character and puts what it emits in front of what was emitted. -/
def feed (progress : Machine × List Emission) (c : Char) : Machine × List Emission :=
  match progress.1.step c with
  | (machine, none) => (machine, progress.2)
  | (machine, some emission) => (machine, emission :: progress.2)

/-- Reads a text; the emissions come in the order of their characters. -/
def run (machine : Machine) (text : List Char) : Machine × List Emission :=
  let progress := text.foldl feed (machine, [])
  (progress.1, progress.2.reverse)

end Machine

/-- The prelude that an emission carries, if any. -/
def Emission.prelude? : Emission → Option Prelude
  | opened head => some head
  | skipped _ _ => none

/-- Everything that reading a stylesheet emits. -/
def emissions (file : String) (text : List Char) : List Emission :=
  (Machine.run { file } text).2

/-- The preludes of a stylesheet, in order. -/
def preludes (file : String) (text : List Char) : List Prelude :=
  (emissions file text).filterMap Emission.prelude?

end SelectorLint.Stylesheet
