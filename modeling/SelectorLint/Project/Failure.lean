import SelectorLint.Config
import SelectorLint.Files.System

/-!
# Failures of project runs

A run that fails reports no finding. What a stylesheet holds never makes a run fail.
The text of a failure takes the complaint about a configuration that is no document.
-/

namespace SelectorLint.Project

open Files

/-- Why a run failed. -/
inductive Failure where
  /-- The configuration could not be read. -/
  | configUnreadable (path : String) (cause : FileError)
  /-- The configuration holds a text that is none. -/
  | configInvalid (path : String) (text : List Char) (fault : Config.Fault)
  /-- The root of the project could not be walked. -/
  | rootUnreadable (root : String) (cause : WalkError)
  /-- A stylesheet could not be read. -/
  | sheetUnreadable (path : String) (cause : FileError)
  deriving DecidableEq, Repr

namespace Failure

/-- The texts of the causes of a failure, the nearest first. -/
def causes (complaint : List Char → String) : Failure → List String
  | configUnreadable _ cause | sheetUnreadable _ cause => [cause.message]
  | configInvalid _ text fault => [fault.message complaint text]
  | rootUnreadable _ cause => [cause.message, cause.cause.message]

/-- What failed, and on which path. -/
def subject : Failure → String
  | configUnreadable path _ => "failed to read config file '" ++ path ++ "'"
  | configInvalid path _ _ => "failed to parse config file '" ++ path ++ "'"
  | rootUnreadable root _ => "failed to walk directory '" ++ root ++ "'"
  | sheetUnreadable path _ => "failed to read css file '" ++ path ++ "'"

/-- The text of a failure: what failed, and the nearest cause. -/
def message (complaint : List Char → String) (failure : Failure) : String :=
  failure.subject ++ ": " ++ (failure.causes complaint).headD ""

/-- The text of a failure, then those of its causes. -/
def chain (complaint : List Char → String) (failure : Failure) : List String :=
  failure.message complaint :: failure.causes complaint

end Failure

end SelectorLint.Project
