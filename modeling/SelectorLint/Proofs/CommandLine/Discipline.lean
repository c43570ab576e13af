import SelectorLint.CommandLine
import SelectorLint.Proofs.Project.Ends

/-!
# The exit code and the two streams

How a run of the program ends is described in two parts. The first says what is inspected and
how that ends, from the paths, the configuration and the file system alone. The second says
what an end becomes: an exit code, the output stream and the error stream, which the log shares
with the text report and with the error. Logging more or less and the colors belong to the second
part only, so neither the exit code nor a finding depends on them.

Writing to a stream is taken to succeed. The complaint about a configuration that is no document
is any function of its text: it can only show up in the error, never in the end or the code.
-/

namespace SelectorLint.CommandLine

open Files Log Project

/-! ## What is inspected -/

/-- What is chosen for inspection, or why nothing is. -/
inductive Target.Chosen (files : FileSystem) (paths : List String) :
    Except Failure Target → Prop where
  /-- Without a path it is the project in the working directory. -/
  | workingDirectory (empty : paths = []) : Chosen files paths (.ok (.project "."))
  /-- A directory without company is a project. -/
  | directory {root : String} (single : paths = [root]) (isDirectory : files.isDirectory root) :
      Chosen files paths (.ok (.project root))
  /-- The first directory among several paths is refused. -/
  | refused {before after : List String} {path : String} (several : 2 ≤ paths.length)
      (given : paths = before ++ path :: after)
      (earlier : ∀ path ∈ before, !files.isDirectory path)
      (isDirectory : files.isDirectory path) :
      Chosen files paths (.error (.directoryAmongPaths path))
  /-- Paths without a directory are stylesheets, in order and with slashes for backslashes. -/
  | stylesheets (given : paths ≠ []) (noDirectory : ∀ path ∈ paths, ¬ files.isDirectory path) :
      Chosen files paths (.ok (.stylesheets (paths.map withSlashes)))

/-- A choice is made as described. -/
theorem Target.Chosen.ofPaths_eq {files : FileSystem} {paths : List String}
    {choice : Except Failure Target} (chosen : Chosen files paths choice) :
    Target.ofPaths files paths = choice := by
  cases chosen with
  | workingDirectory empty => rw [empty, ofPaths]
  | directory single isDirectory =>
    simp only [single, ofPaths, List.find?_cons_of_pos isDirectory]
  | refused several given earlier isDirectory =>
    rename_i before after path
    have found : paths.find? files.isDirectory = some path :=
      List.find?_eq_some_iff_append.mpr ⟨isDirectory, before, after, given, earlier⟩
    match paths, several with
    | first :: second :: rest, _ => simp only [ofPaths, found]
  | stylesheets given noDirectory =>
    have found : paths.find? files.isDirectory = none := List.find?_eq_none.mpr noDirectory
    match paths, given with
    | first :: rest, _ => simp only [ofPaths, found]

/-- There is always a choice: the first directory, if there is one, decides with the number of
    paths. -/
theorem Target.exists_chosen (files : FileSystem) (paths : List String) :
    ∃ choice, Chosen files paths choice := by
  by_cases empty : paths = []
  · exact ⟨_, .workingDirectory empty⟩
  cases found : paths.find? files.isDirectory with
  | none => exact ⟨_, .stylesheets empty (List.find?_eq_none.mp found)⟩
  | some path =>
    obtain ⟨isDirectory, before, after, given, earlier⟩ := List.find?_eq_some_iff_append.mp found
    by_cases several : 2 ≤ paths.length
    · exact ⟨_, .refused several given earlier isDirectory⟩
    · have single : paths = [path] := by
        rw [given, List.length_append, List.length_cons] at several
        have noneBefore : before = [] := List.eq_nil_of_length_eq_zero (by omega)
        have noneAfter : after = [] := List.eq_nil_of_length_eq_zero (by omega)
        rw [given, noneBefore, noneAfter, List.nil_append]
      exact ⟨_, .directory single isDirectory⟩

/-- The choice is the one described, and no other fits the description. -/
theorem Target.ofPaths_eq_iff (files : FileSystem) (paths : List String)
    (choice : Except Failure Target) :
    Target.ofPaths files paths = choice ↔ Chosen files paths choice := by
  refine ⟨?_, Chosen.ofPaths_eq⟩
  rintro rfl
  obtain ⟨choice, chosen⟩ := exists_chosen files paths
  rwa [chosen.ofPaths_eq]

/-- A directory among several paths is refused, wherever it stands. -/
theorem Target.Chosen.exists_refused {files : FileSystem} {paths : List String} {path : String}
    (several : 2 ≤ paths.length) (member : path ∈ paths) (isDirectory : files.isDirectory path) :
    ∃ failure, Chosen files paths (.error failure) := by
  obtain ⟨choice, chosen⟩ := exists_chosen files paths
  cases chosen with
  | workingDirectory empty =>
    rw [empty] at member
    cases member
  | directory single _ =>
    rw [single, List.length_singleton] at several
    omega
  | refused several given earlier first => exact ⟨_, .refused several given earlier first⟩
  | stylesheets _ noDirectory => exact absurd isDirectory (noDirectory path member)

/-! ## How that ends -/

/-- How the inspection of what is chosen ends. A failure is given its place in the program. -/
inductive Ends (files : FileSystem) (paths : List String) (config : Option String) :
    Except Failure Report → Prop where
  /-- Nothing is chosen. -/
  | refused {failure : Failure} (chosen : Target.Chosen files paths (.error failure)) :
      Ends files paths config (.error failure)
  /-- A project is chosen. -/
  | project {root : String} {result : Except Project.Failure Report}
      (chosen : Target.Chosen files paths (.ok (.project root)))
      (ends : RootEnds files root config result) :
      Ends files paths config (result.mapError (.project root))
  /-- Stylesheets are chosen. Their paths start at the working directory. -/
  | stylesheets {sheets : List String} {result : Except Project.Failure Report}
      (chosen : Target.Chosen files paths (.ok (.stylesheets sheets)))
      (ends : SheetsEnd files "." sheets result) :
      Ends files paths config (result.mapError .stylesheets)

/-- The value of an inspection, stage by stage. That a configuration goes unused is logged and
    changes nothing else. -/
theorem value_inspectTarget (files : FileSystem) (options : Options) :
    (inspectTarget files options).run.value =
      Target.ofPaths files options.paths >>= fun
        | .project root =>
          (inspectRoot files root options.config).run.value.mapError (.project root)
        | .stylesheets sheets =>
          (inspectFiles files "." sheets).run.value.mapError .stylesheets := by
  rw [inspectTarget, Logged.value_run_bind]
  congr 1
  funext target
  cases target with
  | project root => rfl
  | stylesheets sheets =>
    dsimp only
    split <;> rfl

/-- The value of an inspection is the one end that fits the description of what is chosen and how
    that ends. -/
theorem inspectTarget_value_iff (files : FileSystem) (options : Options)
    (result : Except Failure Report) :
    (inspectTarget files options).run.value = result ↔
      Ends files options.paths options.config result := by
  rw [value_inspectTarget]
  constructor
  · rintro rfl
    cases choice : Target.ofPaths files options.paths with
    | error failure => exact .refused ((Target.ofPaths_eq_iff _ _ _).mp choice)
    | ok target =>
      have chosen := (Target.ofPaths_eq_iff _ _ _).mp choice
      cases target with
      | project root => exact .project chosen ((inspectRoot_value_iff _ _ _ _).mp rfl)
      | stylesheets sheets => exact .stylesheets chosen ((inspectFiles_value_iff _ _ _ _).mp rfl)
  · intro ends
    cases ends with
    | refused chosen =>
      rw [chosen.ofPaths_eq]
      rfl
    | project chosen ends =>
      rw [chosen.ofPaths_eq, ← (inspectRoot_value_iff _ _ _ _).mpr ends]
      rfl
    | stylesheets chosen ends =>
      rw [chosen.ofPaths_eq, ← ends.value_eq]
      rfl

/-- An inspection depends on the paths and the configuration, and on no other option. -/
theorem inspectTarget_congr {options others : Options} (paths : others.paths = options.paths)
    (config : others.config = options.config) (files : FileSystem) :
    inspectTarget files others = inspectTarget files options := by
  rw [inspectTarget, inspectTarget, paths, config]

/-- A refusal asks which paths are directories. It reads nothing and logs nothing. -/
theorem inspectTarget_refused {files others : FileSystem} {options : Options} {failure : Failure}
    (chosen : Target.Chosen files options.paths (.error failure))
    (same : others.isDirectory = files.isDirectory) :
    (inspectTarget others options).run = ⟨.error failure, []⟩ := by
  have alike : Target.ofPaths others options.paths = Target.ofPaths files options.paths := by
    simp only [Target.ofPaths, same]
  rw [inspectTarget, alike, chosen.ofPaths_eq]
  rfl

/-! ## What an end becomes -/

/-- Whether a run writes colors. -/
def Options.colored (options : Options) (terminal : Bool) : Bool := terminal && !options.noColor

/-- The log records of a run: a line for each event that its options show. -/
def Options.records (options : Options) (terminal : Bool) (events : List Event) : String :=
  String.join ((events.filter fun event =>
    (Threshold.ofFlags options.verbose options.quiet).shows event.level).map
      (logLine (options.colored terminal)))

/-- A quiet run has no records. -/
theorem Options.records_of_quiet {options : Options} (quiet : options.quiet) (terminal : Bool)
    (events : List Event) : options.records terminal events = "" := by
  have hidden : Threshold.ofFlags options.verbose options.quiet = none := by
    rw [Threshold.ofFlags, if_pos quiet]
  have shown : (events.filter fun event => Threshold.shows none event.level) = [] :=
    List.filter_eq_nil_iff.mpr fun event member => Bool.false_ne_true
  rw [records, hidden, shown]
  rfl

/-- What a run with given options makes of an end and of the events on the way to it. -/
structure Disciplined (complaint : List Char → String) (options : Options) (terminal : Bool)
    (result : Except Failure Report) (events : List Event) (outcome : Outcome) : Prop where
  /-- A failure ends with code 2. The error follows the log, and nothing else is written. -/
  failed : ∀ failure, result = .error failure → outcome.code = 2 ∧ outcome.stdout = "" ∧
    outcome.stderr = options.records terminal events
      ++ failureText complaint (options.colored terminal) failure
  /-- Without a failure the code tells whether there is a finding. -/
  code : ∀ report, result = .ok report →
    (outcome.code = 0 ↔ report.findings = []) ∧ (outcome.code = 1 ↔ report.findings ≠ [])
  /-- A text report follows the log. -/
  text : ∀ report, result = .ok report → options.format.getD .text = .text →
    outcome.stdout = "" ∧
    outcome.stderr = options.records terminal events ++ report.toText (options.colored terminal)
  /-- A JSON report has the output stream to itself. -/
  json : ∀ report, result = .ok report → options.format.getD .text = .json →
    outcome.stdout = report.toJson ∧ outcome.stderr = options.records terminal events

/-- The code of a report. -/
theorem code_iff (report : Report) :
    ((if report.isClean then 0 else 1) = 0 ↔ report.findings = []) ∧
      ((if report.isClean then 0 else 1) = 1 ↔ report.findings ≠ []) := by
  rw [Report.isClean]
  cases report.findings <;> simp

section Outcome

variable (complaint : List Char → String)

/-- The outcome of a run that failed. -/
theorem outcome_of_error {files : FileSystem} {options : Options} {failure : Failure}
    (failed : (inspectTarget files options).run.value = .error failure) (terminal : Bool) :
    outcome complaint files terminal options =
      { code := 2
        stderr := options.records terminal (inspectTarget files options).run.log
          ++ failureText complaint (options.colored terminal) failure } := by
  simp only [outcome, failed]
  rfl

/-- The outcome of a run that did not fail. -/
theorem outcome_of_ok {files : FileSystem} {options : Options} {report : Report}
    (succeeded : (inspectTarget files options).run.value = .ok report) (terminal : Bool) :
    outcome complaint files terminal options =
      match options.format.getD .text with
      | .text =>
        { code := if report.isClean then 0 else 1
          stderr := options.records terminal (inspectTarget files options).run.log
            ++ report.toText (options.colored terminal) }
      | .json =>
        { code := if report.isClean then 0 else 1
          stdout := report.toJson
          stderr := options.records terminal (inspectTarget files options).run.log } := by
  simp only [outcome, succeeded]
  rfl

/-- Every run turns its end into an exit code and two streams as described. -/
theorem outcome_disciplined (files : FileSystem) (terminal : Bool) (options : Options) :
    Disciplined complaint options terminal (inspectTarget files options).run.value
      (inspectTarget files options).run.log (outcome complaint files terminal options) where
  failed failure failed := by
    rw [outcome_of_error complaint failed]
    exact ⟨rfl, rfl, rfl⟩
  code report succeeded := by
    rw [outcome_of_ok complaint succeeded]
    cases options.format.getD .text <;> exact code_iff report
  text report succeeded isText := by
    rw [outcome_of_ok complaint succeeded, isText]
    exact ⟨rfl, rfl⟩
  json report succeeded isJson := by
    rw [outcome_of_ok complaint succeeded, isJson]
    exact ⟨rfl, rfl⟩

end Outcome

/-- An end has one code, whatever the options and the terminal are and whatever is said about
    texts that are no documents. -/
theorem Disciplined.code_eq {complaint otherComplaint : List Char → String}
    {options others : Options} {terminal other : Bool} {result : Except Failure Report}
    {events : List Event} {first second : Outcome}
    (one : Disciplined complaint options terminal result events first)
    (another : Disciplined otherComplaint others other result events second) :
    second.code = first.code := by
  cases result with
  | error failure => rw [(one.failed failure rfl).1, (another.failed failure rfl).1]
  | ok report =>
    by_cases clean : report.findings = []
    · rw [(one.code report rfl).1.mpr clean, (another.code report rfl).1.mpr clean]
    · rw [(one.code report rfl).2.mpr clean, (another.code report rfl).2.mpr clean]

/-! ## The whole program -/

/-- Arguments that give options lead to the outcome of the run with these options. -/
theorem execute_of_parse {arguments : List String} {options : Options}
    (parsed : Options.parse arguments = .ok options) (complaint : List Char → String)
    (files : FileSystem) (terminal : Bool) :
    execute complaint files terminal arguments =
      .ok (outcome complaint files terminal options) := by
  rw [execute, parsed]

/-- Arguments that give options always lead to an outcome. It belongs to the one end that the
    paths, the configuration and the file system determine. A directory among several paths fails
    the run before anything is read: whatever else the file system would answer, the outcome is
    the same. Other arguments for the same paths and the same configuration, with more or less
    logging, other colors or another form of the report, lead to the same end with the same code.
    All this holds for every complaint about configurations that are no documents. -/
theorem exit_and_streams {arguments : List String} {options : Options}
    (parsed : Options.parse arguments = .ok options) (complaint : List Char → String)
    (files : FileSystem) (terminal : Bool) :
    ∃ result outcome, execute complaint files terminal arguments = .ok outcome ∧
      (∀ other, Ends files options.paths options.config other ↔ result = other) ∧
      Disciplined complaint options terminal result (inspectTarget files options).run.log outcome ∧
      (2 ≤ options.paths.length → ∀ path ∈ options.paths, files.isDirectory path →
        outcome.code = 2 ∧ (inspectTarget files options).run.log = [] ∧
        ∀ others : FileSystem, others.isDirectory = files.isDirectory →
          execute complaint others terminal arguments = .ok outcome) ∧
      ∀ otherArguments others otherTerminal, Options.parse otherArguments = .ok others →
        others.paths = options.paths → others.config = options.config →
        ∃ otherOutcome, execute complaint files otherTerminal otherArguments = .ok otherOutcome ∧
          otherOutcome.code = outcome.code ∧
          Disciplined complaint others otherTerminal result (inspectTarget files options).run.log
            otherOutcome := by
  have disciplined := outcome_disciplined complaint files terminal options
  refine ⟨_, _, execute_of_parse parsed complaint files terminal,
    fun other => (inspectTarget_value_iff files options other).symm, disciplined, ?_, ?_⟩
  · intro several path member isDirectory
    obtain ⟨failure, chosen⟩ := Target.Chosen.exists_refused several member isDirectory
    have refused := inspectTarget_refused chosen rfl
    refine ⟨(disciplined.failed failure (by rw [refused])).1, by rw [refused], ?_⟩
    intro others same
    rw [execute_of_parse parsed, outcome, outcome, refused, inspectTarget_refused chosen same]
  · intro otherArguments others otherTerminal otherParsed paths config
    have otherDisciplined := outcome_disciplined complaint files otherTerminal others
    rw [inspectTarget_congr paths config] at otherDisciplined
    exact ⟨_, execute_of_parse otherParsed complaint files otherTerminal,
      disciplined.code_eq otherDisciplined, otherDisciplined⟩

/-- The error of a run over a project whose configuration is no document. The complaint is there
    twice, as part of what failed and as its cause. -/
theorem failureText_malformed (complaint : List Char → String) (root path : String)
    (text : List Char) :
    failureText complaint false (.project root (.configInvalid path text .malformed)) =
      "error" ++ ": " ++ ("cannot lint '" ++ root ++ "'" ++ ": "
        ++ ("failed to parse config file '" ++ path ++ "'" ++ ": " ++ complaint text ++ ": "
          ++ complaint text)) ++ "\n" := by
  have chain : (Project.Failure.configInvalid path text .malformed).chain complaint =
      ["failed to parse config file '" ++ path ++ "'" ++ ": " ++ complaint text,
        complaint text] := rfl
  rw [failureText, Failure.message, chain, String.intercalate_cons_cons,
    String.intercalate_cons_cons, String.intercalate_singleton]
  rfl

/-- A file system with one stylesheet, which has one finding, and with a configuration that is no
    document. -/
def oneSheet : FileSystem where
  read path :=
    if path = "./css/a.css" then .ok (Text.Utf8.encode "#a\x7bb\x7d")
    else if path = "./seass.toml" then .ok (Text.Utf8.encode "ignore = [")
    else .error .notFound
  isDirectory _ := false
  entries _ := .error .notDirectory

/-- The findings and the count of that stylesheet. -/
def oneSheetReport : Report where
  findings := (inspect [("css/a.css", "#a\x7bb\x7d".toList)]).value
  sheets := 1

/-- Inspecting the stylesheet ends with its report. -/
theorem ends_oneSheet : Ends oneSheet ["css\\a.css"] none (.ok oneSheetReport) := by
  have reads : List.Forall₂ (fun sheet bytes => oneSheet.read (join "." sheet) = .ok bytes)
      (["css\\a.css"].map withSlashes) [Text.Utf8.encode "#a\x7bb\x7d"] :=
    .cons (by decide +kernel) .nil
  have texts : (["css\\a.css"].map withSlashes).zip
      ([Text.Utf8.encode "#a\x7bb\x7d"].map Text.Utf8.decodeLossy) =
        [("css/a.css", "#a\x7bb\x7d".toList)] := by decide +kernel
  have inspected := SheetsEnd.inspected reads
  rw [texts] at inspected
  change Ends oneSheet ["css\\a.css"] none (Except.mapError .stylesheets (.ok oneSheetReport))
  exact .stylesheets (.stylesheets (by decide) (by decide)) inspected

/-- Inspecting the project ends with the fault of its configuration. -/
theorem ends_oneSheet_project : Ends oneSheet [] none (.error (.project "."
    (.configInvalid "./seass.toml" "ignore = [".toList .malformed))) := by
  have path : join "." configName = "./seass.toml" := by decide +kernel
  have reads : oneSheet.read "./seass.toml" = .ok (Text.Utf8.encode "ignore = [") := by
    decide +kernel
  have decodes : Text.Utf8.decode? (Text.Utf8.encode "ignore = [") = some "ignore = [".toList := by
    decide +kernel
  have refused : Config.ofText "ignore = [".toList = .error .malformed := by decide +kernel
  have fails := ConfigEnds.invalid reads decodes refused
  rw [← path] at fails ⊢
  change Ends oneSheet [] none (Except.mapError (.project ".") (.error _))
  exact .project (.workingDirectory rfl) (.config fails)

/-- A run with much logging and a JSON report over a path with a backslash, whose stylesheet has
    one finding: the output stream has the report, and the same run without logging and colors and
    with a text report ends with the same code. A run over the project fails: the error has the
    complaint about the configuration twice, as part of what failed and as its cause. -/
theorem exit_and_streams_finding :
    oneSheetReport.findings.length = 1 ∧ ∀ complaint : List Char → String,
    (∃ outcome, execute complaint oneSheet true ["-vv", "--format=json", "css\\a.css"] =
        .ok outcome ∧ outcome.code = 1 ∧ outcome.stdout = oneSheetReport.toJson) ∧
    (∃ outcome, execute complaint oneSheet false ["-q", "--no-color", "css\\a.css"] =
        .ok outcome ∧ outcome.code = 1 ∧ outcome.stdout = "" ∧
        outcome.stderr = oneSheetReport.toText false) ∧
    ∃ outcome, execute complaint oneSheet false ["-q"] = .ok outcome ∧ outcome.code = 2 ∧
      outcome.stdout = "" ∧ outcome.stderr =
        "error: cannot lint '.': failed to parse config file './seass.toml': "
          ++ complaint "ignore = [".toList ++ ": " ++ complaint "ignore = [".toList ++ "\n" := by
  have found : oneSheetReport.findings.length = 1 := by decide +kernel
  refine ⟨found, fun complaint => ?_⟩
  have parsed : Options.parse ["-vv", "--format=json", "css\\a.css"] =
      .ok { paths := ["css\\a.css"], format := some .json, verbose := 2 } := by decide +kernel
  have quiet : Options.parse ["-q", "--no-color", "css\\a.css"] =
      .ok { paths := ["css\\a.css"], noColor := true, quiet := true } := by decide +kernel
  have pathless : Options.parse ["-q"] = .ok { quiet := true } := by decide +kernel
  obtain ⟨result, outcome, executes, ends, disciplined, -, further⟩ :=
    exit_and_streams parsed complaint oneSheet true
  obtain ⟨quietOutcome, quietExecutes, same, quietDisciplined⟩ := further _ _ false quiet rfl rfl
  obtain ⟨_, failure, failureExecutes, failureEnds, failureDisciplined, -, -⟩ :=
    exit_and_streams pathless complaint oneSheet false
  have succeeded : result = .ok oneSheetReport := (ends _).mp ends_oneSheet
  have finding := (disciplined.code _ succeeded).2.mpr (List.ne_nil_of_length_pos (by omega))
  have written := quietDisciplined.text _ succeeded rfl
  have failed := failureDisciplined.failed _ ((failureEnds _).mp ends_oneSheet_project)
  rw [Options.records_of_quiet rfl, String.empty_append] at written failed
  refine ⟨⟨outcome, executes, finding, (disciplined.json _ succeeded rfl).1⟩,
    ⟨quietOutcome, quietExecutes, same.trans finding, written⟩, failure, failureExecutes,
    failed.1, failed.2.1, ?_⟩
  have front : "error" ++ ": " ++ ("cannot lint '" ++ "." ++ "'" ++ ": "
      ++ ("failed to parse config file '" ++ "./seass.toml" ++ "'" ++ ": ")) =
        "error: cannot lint '.': failed to parse config file './seass.toml': " := by decide
  rw [failed.2.2, Options.colored, Bool.false_and, failureText_malformed, ← front]
  simp only [String.append_assoc]

end SelectorLint.CommandLine
