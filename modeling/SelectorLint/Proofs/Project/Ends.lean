import Mathlib.Data.List.Forall2
import SelectorLint.Project

/-!
# How a project run ends

A run reads a stylesheet, inspects it and goes on to the next, with one inspection for all of
them. How it ends is described here without that order of work: by what the file system
answers and by the findings of the stylesheets inspected at once. A run that fails ends with
the first failure, in the order configuration, walk, stylesheets, and with nothing else; a run
that does not fail ends with the findings of everything that was found and read.

The description has one relation for each stage. Each relation is the value of its stage, for
every file system, so it says both when a stage fails and when it does not.
-/

namespace SelectorLint

open Files Log Text

/-! ## The value of a run -/

section Value

variable {ε α β : Type}

/-- The value of two steps: the second is taken only with a value of the first. -/
theorem Log.Logged.value_run_bind (first : ExceptT ε Logged α) (next : α → ExceptT ε Logged β) :
    (first >>= next).run.value = first.run.value >>= fun value => (next value).run.value := by
  rw [ExceptT.run_bind, Logged.value_bind]
  cases first.run.value <;> rfl

end Value

/-! ## Stylesheets are counted -/

namespace Inspection

open Selector Stylesheet

/-- A fold of steps that count no stylesheet counts none. -/
theorem sheets_foldlM {α : Type} (step : Inspection → α → Logged Inspection)
    (keeps : ∀ inspection item, (step inspection item).value.sheets = inspection.sheets)
    (inspection : Inspection) (items : List α) :
    (items.foldlM step inspection).value.sheets = inspection.sheets := by
  induction items generalizing inspection with
  | nil => rfl
  | cons item rest inductionHypothesis =>
    rw [List.foldlM_cons, Logged.value_bind, inductionHypothesis, keeps]

/-- Examining a part of a prelude counts no stylesheet. -/
theorem sheets_examineFragment (span : Span) (inspection : Inspection) (fragment : List Char) :
    (examineFragment span inspection fragment).value.sheets = inspection.sheets := by
  rw [examineFragment, Logged.value_bind]
  cases Kind.ofText fragment with
  | id => rfl
  | cssClass =>
    simp only [noteClass]
    cases inspection.occurrences.latest? fragment <;> rfl
  | pseudoClass => rfl
  | element => rfl

/-- Examining a prelude counts no stylesheet. -/
theorem sheets_examine (inspection : Inspection) (head : Prelude) :
    (inspection.examine head).value.sheets = inspection.sheets := by
  simp only [examine, Logged.value_bind]
  rw [sheets_foldlM _ (sheets_examineFragment head.span),
    sheets_foldlM _ fun inspection combinator => rfl]
  split <;> rfl

/-- Reading a stylesheet counts it, however many preludes it has. -/
theorem sheets_readSheet (inspection : Inspection) (file : String) (text : List Char) :
    (inspection.readSheet file text).value.sheets = inspection.sheets + 1 := by
  rw [readSheet, Logged.value_bind, sheets_foldlM]
  intro inspection emission
  rw [take, Logged.value_bind]
  cases emission.prelude? with
  | some head => exact sheets_examine inspection head
  | none => rfl

end Inspection

namespace Project

/-! ## The configuration -/

/-- How taking in the configuration at a path ends. -/
inductive ConfigEnds (files : FileSystem) (path : String) : Except Failure Config → Prop where
  /-- The path cannot be read. -/
  | unreadable {cause : FileError} (fails : files.read path = .error cause) :
      ConfigEnds files path (.error (.configUnreadable path cause))
  /-- The contents are not text. -/
  | notText {bytes : Bytes} (reads : files.read path = .ok bytes)
      (noText : Utf8.decode? bytes = none) :
      ConfigEnds files path (.error (.configUnreadable path .invalidText))
  /-- The text is no configuration. -/
  | invalid {bytes : Bytes} {text : List Char} {fault : Config.Fault}
      (reads : files.read path = .ok bytes) (decodes : Utf8.decode? bytes = some text)
      (refused : Config.ofText text = .error fault) :
      ConfigEnds files path (.error (.configInvalid path text fault))
  /-- The text is a configuration. -/
  | loaded {bytes : Bytes} {text : List Char} {config : Config}
      (reads : files.read path = .ok bytes) (decodes : Utf8.decode? bytes = some text)
      (given : Config.ofText text = .ok config) :
      ConfigEnds files path (.ok config)

/-- Taking in a configuration ends as described: the value is one result, and that result is the
    only one that fits the answers of the file system. -/
theorem configAt_value_iff (files : FileSystem) (path : String) (result : Except Failure Config) :
    (configAt files path).run.value = result ↔ ConfigEnds files path result := by
  constructor
  · rintro rfl
    cases reads : files.read path with
    | error cause =>
      simp only [configAt, reads]
      exact .unreadable reads
    | ok bytes =>
      cases decodes : Utf8.decode? bytes with
      | none =>
        simp only [configAt, reads, decodes]
        exact .notText reads decodes
      | some text =>
        cases given : Config.ofText text with
        | error fault =>
          simp only [configAt, reads, decodes, given]
          exact .invalid reads decodes given
        | ok config =>
          simp only [configAt, reads, decodes, given]
          exact .loaded reads decodes given
  · intro ends
    cases ends with
    | unreadable fails =>
      simp only [configAt, fails]
      rfl
    | notText reads noText =>
      simp only [configAt, reads, noText]
      rfl
    | invalid reads decodes refused =>
      simp only [configAt, reads, decodes, refused]
      rfl
    | loaded reads decodes given =>
      simp only [configAt, reads, decodes, given]
      rfl

/-! ## The walk -/

/-- How the walk below a root ends. -/
inductive WalkEnds (files : FileSystem) (root : String) (config : Config) :
    Except Failure (List String) → Prop where
  /-- The root cannot be read. -/
  | rootUnreadable {cause : FileError} (fails : files.entries root = .error cause) :
      WalkEnds files root config (.error (.rootUnreadable root ⟨root, cause⟩))
  /-- A directory that the walk goes into cannot be read, and it is the first of this kind. -/
  | directoryUnreadable {entries : List (Bytes × Entry)} {before after : List Visit} {visit : Visit}
      {cause : FileError} (reads : files.entries root = .ok entries)
      (visits : walk config.lists entries = before ++ visit :: after)
      (readable : ∀ earlier ∈ before, earlier.fault = none) (fails : visit.fault = some cause) :
      WalkEnds files root config (.error (.rootUnreadable root ⟨join root visit.path, cause⟩))
  /-- The walk goes through, and gives the stylesheets that it met and that are not listed. -/
  | walked {entries : List (Bytes × Entry)} (reads : files.entries root = .ok entries)
      (readable : ∀ visit ∈ walk config.lists entries, visit.fault = none) :
      WalkEnds files root config
        (.ok (((walk config.lists entries).filter Visit.isSheet).map (·.path)))

/-- The walk passes over what the configuration lists. -/
theorem contains_eq_lists (config : Config) :
    (fun path => config.ignore.contains path) = config.lists := by
  funext path
  rw [Config.lists, List.contains_eq_any_beq]
  exact congrArg (config.ignore.any ·) (funext fun _ => BEq.comm)

/-- The walk below a root gives its stylesheets unless it meets an end. -/
theorem value_gather (config : Config) (entries : List (Bytes × Entry)) :
    (gather config.ignore entries).value =
      match (walk config.lists entries).findSome? Visit.error? with
      | some error => .error error
      | none => .ok (((walk config.lists entries).filter Visit.isSheet).map (·.path)) := by
  rw [gather, contains_eq_lists]
  cases (walk config.lists entries).findSome? Visit.error? <;> rfl

/-- The walk does not end at a visit without a fault. -/
theorem Visit.error?_eq_none_iff (visit : Visit) : visit.error? = none ↔ visit.fault = none := by
  rw [error?, Option.map_eq_none_iff]

/-- The walk below a root ends as described. The first visit with a fault decides; without one the
    walk gives every stylesheet it met. -/
theorem sheetsBelow_value_iff (files : FileSystem) (root : String) (config : Config)
    (result : Except Failure (List String)) :
    (sheetsBelow files root config).run.value = result ↔ WalkEnds files root config result := by
  have value {entries : List (Bytes × Entry)} (reads : files.entries root = .ok entries) :
      (sheetsBelow files root config).run.value =
        (gather config.ignore entries).value.mapError fun error =>
          .rootUnreadable root { error with path := join root error.path } := by
    simp only [sheetsBelow, reads]
    rfl
  constructor
  · rintro rfl
    cases reads : files.entries root with
    | error cause =>
      simp only [sheetsBelow, reads]
      exact .rootUnreadable reads
    | ok entries =>
      rw [value reads, value_gather]
      cases met : (walk config.lists entries).findSome? Visit.error? with
      | none =>
        rw [List.findSome?_eq_none_iff] at met
        exact .walked reads fun visit member => visit.error?_eq_none_iff.mp (met visit member)
      | some error =>
        obtain ⟨before, visit, after, visits, ends, readable⟩ := List.findSome?_eq_some_iff.mp met
        obtain ⟨cause, fails, rfl⟩ := Option.map_eq_some_iff.mp ends
        exact .directoryUnreadable reads visits
          (fun earlier member => earlier.error?_eq_none_iff.mp (readable earlier member)) fails
  · intro ends
    cases ends with
    | rootUnreadable fails =>
      simp only [sheetsBelow, fails]
      rfl
    | directoryUnreadable reads visits readable fails =>
      rename_i entries before after visit cause
      have met : (walk config.lists entries).findSome? Visit.error? = some ⟨visit.path, cause⟩ := by
        refine List.findSome?_eq_some_iff.mpr ⟨before, visit, after, visits, ?_, ?_⟩
        · rw [Visit.error?, fails]
          rfl
        · exact fun earlier member => earlier.error?_eq_none_iff.mpr (readable earlier member)
      rw [value reads, value_gather, met]
      rfl
    | walked reads readable =>
      rename_i entries
      have met : (walk config.lists entries).findSome? Visit.error? = none :=
        List.findSome?_eq_none_iff.mpr fun visit member =>
          visit.error?_eq_none_iff.mpr (readable visit member)
      rw [value reads, value_gather, met]
      rfl

/-! ## The stylesheets -/

/-- How a run over given stylesheets ends. -/
inductive SheetsEnd (files : FileSystem) (root : String) (sheets : List String) :
    Except Failure Report → Prop where
  /-- One of them cannot be read, and it is the first of this kind. Whatever stands in front of it
      was inspected and is not reported. -/
  | unreadable {before after : List String} {sheet : String} {cause : FileError}
      (given : sheets = before ++ sheet :: after)
      (readable : ∀ earlier ∈ before, ∃ bytes, files.read (join root earlier) = .ok bytes)
      (fails : files.read (join root sheet) = .error cause) :
      SheetsEnd files root sheets (.error (.sheetUnreadable (join root sheet) cause))
  /-- All of them can be read, and the findings are those of their texts. -/
  | inspected {contents : List Bytes}
      (reads : List.Forall₂ (fun sheet bytes => files.read (join root sheet) = .ok bytes)
        sheets contents) :
      SheetsEnd files root sheets
        (.ok { findings := (inspect (sheets.zip (contents.map Utf8.decodeLossy))).value
               sheets := sheets.length })

/-- Either every stylesheet of a list can be read or there is a first one that cannot. -/
theorem readable_or_unreadable (files : FileSystem) (root : String) (sheets : List String) :
    (∃ contents, List.Forall₂ (fun sheet bytes => files.read (join root sheet) = .ok bytes)
      sheets contents) ∨
    ∃ before sheet after cause, sheets = before ++ sheet :: after ∧
      (∀ earlier ∈ before, ∃ bytes, files.read (join root earlier) = .ok bytes) ∧
      files.read (join root sheet) = .error cause := by
  induction sheets with
  | nil => exact .inl ⟨[], .nil⟩
  | cons sheet rest inductionHypothesis =>
    cases reads : files.read (join root sheet) with
    | error cause => exact .inr ⟨[], sheet, rest, cause, rfl, by simp, reads⟩
    | ok bytes =>
      rcases inductionHypothesis with
        ⟨contents, readable⟩ | ⟨before, later, after, cause, rfl, readable, fails⟩
      · exact .inl ⟨bytes :: contents, .cons reads readable⟩
      · refine .inr ⟨sheet :: before, later, after, cause, rfl, ?_, fails⟩
        rw [List.forall_mem_cons]
        exact ⟨⟨bytes, reads⟩, readable⟩

/-- Inspecting one stylesheet: it is read, and then inspected as a text. -/
theorem value_inspectFile (files : FileSystem) (root : String) (inspection : Inspection)
    (sheet : String) :
    (inspectFile files root inspection sheet).run.value =
      (sheetText files (join root sheet)).map fun text =>
        (inspection.readSheet sheet text).value := by
  rw [inspectFile, Logged.value_run_bind]
  cases sheetText files (join root sheet) <;> rfl

/-- Reading and inspecting stylesheets in turn comes to inspecting the texts that were read. -/
theorem value_inspect_readable {files : FileSystem} {root : String} {sheets : List String}
    {contents : List Bytes}
    (reads : List.Forall₂ (fun sheet bytes => files.read (join root sheet) = .ok bytes)
      sheets contents) (inspection : Inspection) :
    (sheets.foldlM (inspectFile files root) inspection).run.value =
      .ok ((sheets.zip (contents.map Utf8.decodeLossy)).foldlM
        (fun (inspection : Inspection) sheet => inspection.readSheet sheet.1 sheet.2)
        inspection).value := by
  induction reads generalizing inspection with
  | nil => rfl
  | cons read _ inductionHypothesis =>
    rw [List.foldlM_cons, Logged.value_run_bind, value_inspectFile, sheetText, read]
    exact inductionHypothesis _

/-- The first stylesheet that cannot be read ends the run, however many were inspected before
    it. -/
theorem value_inspect_unreadable {files : FileSystem} {root sheet : String} {cause : FileError}
    (fails : files.read (join root sheet) = .error cause) (before after : List String)
    (readable : ∀ earlier ∈ before, ∃ bytes, files.read (join root earlier) = .ok bytes)
    (inspection : Inspection) :
    ((before ++ sheet :: after).foldlM (inspectFile files root) inspection).run.value =
      .error (.sheetUnreadable (join root sheet) cause) := by
  induction before generalizing inspection with
  | nil =>
    rw [List.nil_append, List.foldlM_cons, Logged.value_run_bind, value_inspectFile, sheetText,
      fails]
    rfl
  | cons earlier rest inductionHypothesis =>
    rw [List.forall_mem_cons] at readable
    obtain ⟨⟨bytes, reads⟩, further⟩ := readable
    rw [List.cons_append, List.foldlM_cons, Logged.value_run_bind, value_inspectFile, sheetText,
      reads]
    exact inductionHypothesis further _

/-- Every text that is inspected is counted. -/
theorem sheets_inspected (texts : List (String × List Char)) (inspection : Inspection) :
    (texts.foldlM (fun (inspection : Inspection) sheet => inspection.readSheet sheet.1 sheet.2)
      inspection).value.sheets = inspection.sheets + texts.length := by
  induction texts generalizing inspection with
  | nil => rfl
  | cons sheet rest inductionHypothesis =>
    rw [List.foldlM_cons, Logged.value_bind, inductionHypothesis, Inspection.sheets_readSheet,
      List.length_cons]
    omega

/-- A run that has inspected its stylesheets reports the findings and the count. -/
theorem value_inspectFiles (files : FileSystem) (root : String) (sheets : List String) :
    (inspectFiles files root sheets).run.value =
      (sheets.foldlM (inspectFile files root) ({} : Inspection)).run.value.map fun inspection =>
        { findings := inspection.findings.toList, sheets := inspection.sheets } := by
  rw [inspectFiles, Logged.value_run_bind]
  cases (sheets.foldlM (inspectFile files root) ({} : Inspection)).run.value <;> rfl

/-- A run over given stylesheets ends as described. -/
theorem SheetsEnd.value_eq {files : FileSystem} {root : String} {sheets : List String}
    {result : Except Failure Report} (ends : SheetsEnd files root sheets result) :
    (inspectFiles files root sheets).run.value = result := by
  rw [value_inspectFiles]
  cases ends with
  | unreadable given readable fails =>
    rw [given, value_inspect_unreadable fails _ _ readable]
    rfl
  | @inspected contents reads =>
    have length : (sheets.zip (contents.map Utf8.decodeLossy)).length = sheets.length := by
      rw [List.length_zip, List.length_map, reads.length_eq, Nat.min_self]
    have counted := sheets_inspected (sheets.zip (contents.map Utf8.decodeLossy)) {}
    rw [length, Nat.zero_add] at counted
    rw [value_inspect_readable reads, Except.map, counted]
    rfl

/-- A run over given stylesheets ends as described, and in no other way: either all of them can be
    read or there is a first one that cannot. -/
theorem inspectFiles_value_iff (files : FileSystem) (root : String) (sheets : List String)
    (result : Except Failure Report) :
    (inspectFiles files root sheets).run.value = result ↔ SheetsEnd files root sheets result := by
  refine ⟨?_, SheetsEnd.value_eq⟩
  rintro rfl
  rcases readable_or_unreadable files root sheets with
    ⟨contents, reads⟩ | ⟨before, sheet, after, cause, given, readable, fails⟩
  · have ends := SheetsEnd.inspected reads
    rwa [ends.value_eq]
  · have ends := SheetsEnd.unreadable given readable fails
    rwa [ends.value_eq]

/-! ## The whole run -/

/-- How a run over a project ends: with the failure of its configuration, whatever the root holds;
    else with the failure of the walk; else as the run over the stylesheets found ends. -/
inductive RootEnds (files : FileSystem) (root : String) (configPath : Option String) :
    Except Failure Report → Prop where
  /-- The configuration, the given one or that of the root, cannot be taken in. -/
  | config {failure : Failure}
      (fails : ConfigEnds files (configPath.getD (join root configName)) (.error failure)) :
      RootEnds files root configPath (.error failure)
  /-- The root cannot be walked. -/
  | walk {config : Config} {failure : Failure}
      (loaded : ConfigEnds files (configPath.getD (join root configName)) (.ok config))
      (fails : WalkEnds files root config (.error failure)) :
      RootEnds files root configPath (.error failure)
  /-- The stylesheets below the root are known. -/
  | sheets {config : Config} {sheets : List String} {result : Except Failure Report}
      (loaded : ConfigEnds files (configPath.getD (join root configName)) (.ok config))
      (walked : WalkEnds files root config (.ok sheets))
      (ends : SheetsEnd files root sheets result) :
      RootEnds files root configPath result

/-- The stages of a run over a project, one after the other. -/
theorem value_inspectRoot (files : FileSystem) (root : String) (configPath : Option String) :
    (inspectRoot files root configPath).run.value =
      (configAt files (configPath.getD (join root configName))).run.value >>= fun config =>
        (sheetsBelow files root config).run.value >>= fun sheets =>
          (inspectFiles files root sheets).run.value := by
  rw [inspectRoot, Logged.value_run_bind]
  congr 1
  funext config
  rw [Logged.value_run_bind]
  rfl

/-- A run over a project ends as described. Each stage is reached only with the value of the stage
    before it, so the first failure in the order of the stages is the end. -/
theorem inspectRoot_value_iff (files : FileSystem) (root : String) (configPath : Option String)
    (result : Except Failure Report) :
    (inspectRoot files root configPath).run.value = result ↔
      RootEnds files root configPath result := by
  rw [value_inspectRoot]
  simp only [bind, Except.bind]
  constructor
  · rintro rfl
    cases configured : (configAt files (configPath.getD (join root configName))).run.value with
    | error failure => exact .config ((configAt_value_iff _ _ _).mp configured)
    | ok config =>
      have loaded := (configAt_value_iff _ _ _).mp configured
      dsimp only
      cases found : (sheetsBelow files root config).run.value with
      | error failure => exact .walk loaded ((sheetsBelow_value_iff _ _ _ _).mp found)
      | ok sheets =>
        exact .sheets loaded ((sheetsBelow_value_iff _ _ _ _).mp found)
          ((inspectFiles_value_iff _ _ _ _).mp rfl)
  · intro ends
    cases ends with
    | config fails => rw [(configAt_value_iff _ _ _).mpr fails]
    | walk loaded fails =>
      rw [(configAt_value_iff _ _ _).mpr loaded]
      dsimp only
      rw [(sheetsBelow_value_iff _ _ _ _).mpr fails]
    | sheets loaded walked ends =>
      rw [(configAt_value_iff _ _ _).mpr loaded]
      dsimp only
      rw [(sheetsBelow_value_iff _ _ _ _).mpr walked]
      exact ends.value_eq

/-- A run is all or nothing. Over a project it ends with the failure of the chosen configuration,
    else with that of the walk, else with that of the first stylesheet in the order of the walk
    that cannot be read, else with the findings of all stylesheets inspected at once and their
    number. Over given stylesheets, repeated ones included, the last two hold likewise. Each
    description is met by exactly one end. -/
theorem run_all_or_nothing (files : FileSystem) (root : String) :
    (∀ configPath result, (inspectRoot files root configPath).run.value = result ↔
      RootEnds files root configPath result) ∧
    (∀ sheets result, (inspectFiles files root sheets).run.value = result ↔
      SheetsEnd files root sheets result) :=
  ⟨inspectRoot_value_iff files root, inspectFiles_value_iff files root⟩

end Project

end SelectorLint
