import SelectorLint.Inspection
import SelectorLint.Project.Failure
import SelectorLint.Project.Walk
import SelectorLint.Report

/-!
# Project runs

A run over a project takes its configuration, walks its root, reads every stylesheet
that is not left out and inspects them in the order of the walk. A run over given files
needs no configuration. The first failure ends a run, and then there is no report.
-/

namespace SelectorLint

open Files Log Text

/-- A computation that logs and can fail. What was logged before a failure stays. -/
abbrev Run (α : Type) := ExceptT Project.Failure Logged α

/-- Logs one event of a run. -/
def Run.note (event : Event) : Run Unit := ExceptT.lift (Logged.note event)

namespace Project

/-- The name of the configuration in the root of a project. -/
def configName : String := "seass.toml"

/-- The configuration at a path. -/
def configAt (files : FileSystem) (path : String) : Run Config := do
  match files.read path with
  | .error cause => throw (.configUnreadable path cause)
  | .ok bytes =>
    match Utf8.decode? bytes with
    | none => throw (.configUnreadable path .invalidText)
    | some text =>
      match Config.ofText text with
      | .error fault => throw (.configInvalid path text fault)
      | .ok config =>
        Run.note (.configLoaded path config.ignore.length)
        return config

/-- The text of the stylesheet at a path, with flaws in its encoding replaced. -/
def sheetText (files : FileSystem) (path : String) : Except Failure (List Char) :=
  match files.read path with
  | .error cause => .error (.sheetUnreadable path cause)
  | .ok bytes => .ok (Utf8.decodeLossy bytes)

/-- The stylesheets below a root that a configuration does not leave out. -/
def sheetsBelow (files : FileSystem) (root : String) (config : Config) : Run (List String) := do
  match files.entries root with
  | .error cause => throw (.rootUnreadable root { path := root, cause })
  | .ok entries =>
    ExceptT.adapt (fun error => .rootUnreadable root { error with path := join root error.path })
      (ExceptT.mk (gather config.ignore entries))

/-- Reads and inspects one stylesheet, given relative to a root. -/
def inspectFile (files : FileSystem) (root : String) (inspection : Inspection)
    (file : String) : Run Inspection := do
  let text ← ExceptT.mk (pure (sheetText files (join root file)))
  Run.note (.linting file (byteLength text))
  ExceptT.lift (inspection.readSheet file text)

/-- Inspects stylesheets, given relative to a root, in one run. Findings name each as
    it was given. -/
def inspectFiles (files : FileSystem) (root : String) (sheets : List String) : Run Report := do
  let inspection ← sheets.foldlM (inspectFile files root) ({} : Inspection)
  let findings ← ExceptT.lift inspection.conclude
  return { findings, sheets := inspection.sheets }

/-- Inspects the project at a root, with another configuration than its own if one is
    given. -/
def inspectRoot (files : FileSystem) (root : String) (configPath : Option String) :
    Run Report := do
  let config ← configAt files (configPath.getD (join root configName))
  let sheets ← sheetsBelow files root config
  Run.note (.stylesheetsFound sheets.length root)
  inspectFiles files root sheets

end Project

end SelectorLint
