import SelectorLint.CommandLine.Help
import SelectorLint.CommandLine.Options
import SelectorLint.Project

/-!
# The program

A run of the program is decided by its arguments, the file system and whether the
error stream is a terminal. It writes its log and a text report to the error stream,
a JSON report to the output stream, and ends with code 0 when there was no finding,
1 when there was one, and 2 when it failed. What it writes about a configuration that
is no document is given to the run, as the complaint about the text.
-/

namespace SelectorLint.CommandLine

open Files Log

/-- What a run inspects. -/
inductive Target where
  /-- A project, by its root. -/
  | project (root : String)
  /-- Single stylesheets. -/
  | stylesheets (files : List String)
  deriving DecidableEq, Repr

/-- Why a run failed. -/
inductive Failure where
  /-- A directory is among several paths. -/
  | directoryAmongPaths (path : String)
  /-- The run over a project failed. -/
  | project (root : String) (failure : Project.Failure)
  /-- The run over single stylesheets failed. -/
  | stylesheets (failure : Project.Failure)
  deriving DecidableEq, Repr

/-- The text of a failure, down to its first cause. -/
def Failure.message (complaint : List Char → String) : Failure → String
  | directoryAmongPaths path =>
    "'" ++ path ++ "' is a directory; pass one directory or only stylesheets"
  | project root failure =>
    ": ".intercalate (("cannot lint '" ++ root ++ "'") :: failure.chain complaint)
  | stylesheets failure =>
    ": ".intercalate ("cannot lint stylesheets" :: failure.chain complaint)

/-- What a run wrote, and the code it ended with. -/
structure Outcome where
  /-- The exit code. -/
  code : Nat
  /-- What was written to the output stream. -/
  stdout : String := ""
  /-- What was written to the error stream. -/
  stderr : String := ""
  deriving DecidableEq, Repr

/-- A path with a slash for each backslash. -/
def withSlashes (path : String) : String :=
  String.ofList (path.toList.map fun c => if c = '\\' then '/' else c)

/-- What to inspect. Without a path it is the project in the working directory; one
    directory is a project; a directory among several paths is refused; anything else
    is stylesheets, with slashes for backslashes in their paths. -/
def Target.ofPaths (files : FileSystem) (paths : List String) : Except Failure Target :=
  match paths with
  | [] => .ok (.project ".")
  | paths =>
    match paths.find? files.isDirectory, paths with
    | some root, [_] => .ok (.project root)
    | some path, _ => .error (.directoryAmongPaths path)
    | none, _ => .ok (.stylesheets (paths.map withSlashes))

/-- Gives the failure of a run its place in the program. -/
def explain (wrap : Project.Failure → Failure) (run : Run Report) :
    ExceptT Failure Logged Report :=
  ExceptT.mk (Except.mapError wrap <$> run.run)

/-- Inspects what the options say. -/
def inspectTarget (files : FileSystem) (options : Options) : ExceptT Failure Logged Report := do
  match ← ExceptT.mk (pure (Target.ofPaths files options.paths)) with
  | .project root =>
    explain (.project root) (Project.inspectRoot files root options.config)
  | .stylesheets paths =>
    if options.config.isSome then ExceptT.lift (Logged.note .configUnused)
    explain .stylesheets (Project.inspectFiles files "." paths)

/-- The color of a level. -/
def levelColor : Level → Color
  | .warn => .yellow
  | .debug => .blue
  | .trace => .dimmed

/-- A logged event as a line of the error stream. -/
def logLine (color : Bool) (event : Event) : String :=
  "[" ++ (levelColor event.level).paint color event.level.name ++ "] " ++ event.text ++ "\n"

/-- A failure as lines of the error stream. -/
def failureText (complaint : List Char → String) (color : Bool) (failure : Failure) : String :=
  Color.bold.paint color (Color.red.paint color "error") ++ ": " ++ failure.message complaint
    ++ "\n"

/-- The outcome of a run with given options. -/
def outcome (complaint : List Char → String) (files : FileSystem) (terminal : Bool)
    (options : Options) : Outcome :=
  let color := terminal && !options.noColor
  let logged := (inspectTarget files options).run
  let threshold := Threshold.ofFlags options.verbose options.quiet
  let log := String.join ((logged.shown threshold).map (logLine color))
  match logged.value with
  | .error failure => { code := 2, stderr := log ++ failureText complaint color failure }
  | .ok report =>
    let code := if report.isClean then 0 else 1
    match options.format.getD .text with
    | .text => { code, stderr := log ++ report.toText color }
    | .json => { code, stdout := report.toJson, stderr := log }

/-- The paths that a run with given options may read or take for a directory, apart
    from what lies below a project's root. -/
def consulted (options : Options) : List String :=
  let roots := if options.paths.isEmpty then ["."] else options.paths
  roots ++ options.config.toList ++ roots.map (join · Project.configName)
    ++ options.paths.map fun path => join "." (withSlashes path)

/-- What a refusal writes to the error stream. -/
def refusalText (refusal : Refusal) : String :=
  "error: " ++ refusal.message ++ "\n\n" ++ usageLine
    ++ "\n\nFor more information, try '--help'.\n"

/-- The first line of a text, without its line end. -/
def firstLine (text : String) : String :=
  let line := text.toList.takeWhile (· ≠ '\n')
  String.ofList (if line.getLast? = some '\r' then line.dropLast else line)

/-- Runs the program with given arguments, unless they are refused. -/
def execute (complaint : List Char → String) (files : FileSystem) (terminal : Bool)
    (arguments : List String) : Except Refusal Outcome :=
  match Options.parse arguments with
  | .ok options => .ok (outcome complaint files terminal options)
  | .error (.help long) => .ok { code := 0, stdout := helpText long }
  | .error .version => .ok { code := 0, stdout := versionText }
  | .error (.refused refusal) => .error refusal

end SelectorLint.CommandLine
