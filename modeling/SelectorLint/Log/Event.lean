import SelectorLint.Finding
import SelectorLint.Selector.Kind
import SelectorLint.Stylesheet.Context
import SelectorLint.Text.Quoted

/-!
# What a run logs

Each event of a run has a level and a text. A threshold chooses the levels that are
shown: warnings by default, more on request, nothing when quiet.
-/

namespace SelectorLint.Log

open Stylesheet Text

/-- How much an event matters. -/
inductive Level where
  /-- Something the user should know. -/
  | warn
  /-- The steps of a run. -/
  | debug
  /-- Every decision within a step. -/
  | trace
  deriving DecidableEq, Repr

/-- The name of a level. -/
def Level.name : Level → String
  | warn => "WARN"
  | debug => "DEBUG"
  | trace => "TRACE"

/-- The rank of a level: the higher, the less it matters. -/
def Level.rank : Level → Nat
  | warn => 1
  | debug => 2
  | trace => 3

/-- The least important level that is shown, or none when nothing is. -/
abbrev Threshold := Option Level

/-- The threshold chosen by the number of requests for more and the request for
    none. Quiet wins. -/
def Threshold.ofFlags (verbose : Nat) (quiet : Bool) : Threshold :=
  if quiet then none
  else if verbose = 0 then some .warn
  else if verbose = 1 then some .debug
  else some .trace

/-- The name of a threshold. -/
def Threshold.name : Threshold → String
  | none => "OFF"
  | some level => level.name

/-- Whether a threshold shows a level. -/
def Threshold.shows : Threshold → Level → Bool
  | none, _ => false
  | some least, level => level.rank ≤ least.rank

/-- What can be logged. -/
inductive Event where
  /-- A prelude was found. -/
  | preludeFound (found : Prelude)
  /-- An at-rule was passed over. -/
  | atRuleSkipped (file : String) (rule : AtRule) (token : List Char)
  /-- A stylesheet is about to be read. -/
  | scanning (file : String)
  /-- A prelude is split by a combinator. -/
  | combinatorFound (found : Prelude) (combinator : Selector.Combinator)
  /-- A part of a prelude is of a kind. -/
  | classified (span : Span) (selector : List Char) (kind : Selector.Kind)
  /-- A class selector occurs again. -/
  | redefined (selector : List Char) (span : Span)
  /-- A run over stylesheets has ended. -/
  | finished (findings preludes files : Nat)
  /-- A configuration was read. -/
  | configLoaded (path : String) (entries : Nat)
  /-- A path is left out of a run. -/
  | ignoring (path : String)
  /-- An ignore entry matched nothing. -/
  | unmatchedIgnore (entry : String)
  /-- The stylesheets of a project are known. -/
  | stylesheetsFound (count : Nat) (root : String)
  /-- A stylesheet was read into memory. -/
  | linting (file : String) (bytes : Nat)
  /-- A configuration was given to a run that uses none. -/
  | configUnused
  deriving DecidableEq, Repr

namespace Event

/-- The level of an event. -/
def level : Event → Level
  | preludeFound _ | atRuleSkipped _ _ _ | combinatorFound _ _ | classified _ _ _
  | redefined _ _ => .trace
  | scanning _ | finished _ _ _ | configLoaded _ _ | ignoring _ | stylesheetsFound _ _
  | linting _ _ => .debug
  | unmatchedIgnore _ | configUnused => .warn

/-- The text of an event. -/
def text : Event → String
  | preludeFound found =>
    found.span.file ++ ": prelude " ++ Quoted.encode found.text ++ " at " ++ found.span.render
  | atRuleSkipped file rule token =>
    file ++ ": skipped " ++ rule.name ++ " " ++ Quoted.encode token
  | scanning file => "scanning " ++ file
  | combinatorFound found combinator =>
    found.span.render ++ ": " ++ combinator.name ++ " combinator in " ++ Quoted.encode found.text
  | classified span selector kind =>
    span.render ++ ": " ++ String.ofList selector ++ " is a " ++ kind.name ++ " selector"
  | redefined selector span => String.ofList selector ++ " redefined at " ++ span.render
  | finished findings preludes files =>
    findings.repr ++ " finding(s) in " ++ preludes.repr ++ " prelude(s) across "
      ++ files.repr ++ " file(s)"
  | configLoaded path entries =>
    "loaded " ++ path ++ " with " ++ entries.repr ++ " ignore entr"
      ++ (if entries = 1 then "y" else "ies")
  | ignoring path => "ignoring " ++ path
  | unmatchedIgnore entry => "ignore entry '" ++ entry ++ "' did not match any path"
  | stylesheetsFound count root => "found " ++ count.repr ++ " stylesheet(s) under " ++ root
  | linting file bytes => "linting " ++ file ++ " (" ++ bytes.repr ++ " bytes)"
  | configUnused => "--config has no effect when linting individual files"

end Event

end SelectorLint.Log
