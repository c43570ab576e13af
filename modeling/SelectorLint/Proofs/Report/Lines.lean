import SelectorLint.Proofs.Inspection.Exactness
import SelectorLint.Proofs.Stylesheet.Spans
import SelectorLint.Report

/-!
# The lines of a text report

A text report is meant to have one line for each finding and a summary line, so that a reader
gets the findings back by dividing it at line feeds. Numbers, fixed texts and the summary hold
no line feed, and names of stylesheets are assumed to hold none. What is left is the selector
of a repeated class: a line feed inside a part of a prelude is no combinator and stays in it.
So the report can be divided exactly when no class selector that occurs twice goes over
several lines.
-/

namespace SelectorLint

open Inspection Selector Stylesheet

/-- Lines that each end with a line feed are read back by dividing at line feeds exactly when
    none of them holds one. The last piece is the empty one behind the last line. -/
theorem splitOn_lines_iff (lines : List (List Char)) :
    (lines.flatMap (· ++ ['\n'])).splitOn '\n' = lines ++ [[]] ↔ ∀ line ∈ lines, '\n' ∉ line := by
  constructor
  · intro divided line member
    have piece : line ∈ (lines.flatMap (· ++ ['\n'])).splitOn '\n' := by
      rw [divided]
      exact List.mem_append_left _ member
    exact not_mem_of_mem_splitOn piece
  · intro single
    induction lines with
    | nil => rfl
    | cons line rest inductionHypothesis =>
      rw [List.forall_mem_cons] at single
      rw [List.flatMap_cons, List.append_assoc, List.singleton_append,
        List.splitOn_append_cons_self, List.splitOn_eq_singleton single.1,
        inductionHypothesis single.2]
      rfl

/-- Lines that each end with a line feed hold one for each line exactly when none of them holds
    another. -/
theorem count_lines_iff (lines : List (List Char)) :
    (lines.flatMap (· ++ ['\n'])).count '\n' = lines.length ↔ ∀ line ∈ lines, '\n' ∉ line := by
  have total : (lines.flatMap (· ++ ['\n'])).count '\n' =
      lines.length + (lines.map (List.count '\n')).sum := by
    induction lines with
    | nil => rfl
    | cons line rest inductionHypothesis =>
      rw [List.flatMap_cons, List.count_append, List.count_append, inductionHypothesis,
        List.length_cons, List.map_cons, List.sum_cons, List.count_singleton_self]
      omega
  have none : (lines.map (List.count '\n')).sum = 0 ↔ ∀ line ∈ lines, '\n' ∉ line := by
    rw [List.sum_eq_zero_iff_forall_eq_nat, List.forall_mem_map]
    simp only [List.count_eq_zero]
  rw [total, ← none]
  omega

/-- A position is written without line feeds. -/
theorem Stylesheet.Position.lineFeed_not_mem_render (position : Position) :
    '\n' ∉ position.render.toList := by
  rw [toList_render, List.mem_append, List.mem_cons]
  rintro (inLine | isColon | inColumn)
  · exact not_mem_repr _ _ (by decide) inLine
  · exact absurd isColon (by decide)
  · exact not_mem_repr _ _ (by decide) inColumn

/-- A line feed in a span is in the name of its stylesheet. -/
theorem Stylesheet.Span.lineFeed_mem_render_iff (span : Span) :
    '\n' ∈ span.render.toList ↔ '\n' ∈ span.file.toList := by
  simp [render, String.toList_append, span.first.lineFeed_not_mem_render,
    span.last.lineFeed_not_mem_render]

/-- A line feed in the text of a problem is in a repeated selector. -/
theorem Problem.lineFeed_mem_text_iff (problem : Problem) :
    '\n' ∈ problem.text.toList ↔
      ∃ selector, problem = .duplicateSelector selector ∧ '\n' ∈ selector := by
  rcases problem.fixed_or_duplicate with isFixed | ⟨selector, rfl⟩
  · have none : ∀ problem ∈ fixed, '\n' ∉ problem.text.toList := by decide +kernel
    have other : ∀ problem ∈ fixed, ∀ selector, problem ≠ .duplicateSelector selector := by
      simp [fixed]
    refine iff_of_false (none problem isFixed) ?_
    rintro ⟨selector, isDuplicate, _⟩
    exact other problem isFixed selector isDuplicate
  · rw [toList_text_duplicate]
    simp

/-- A line feed in the line of a finding is in the name of its stylesheet or in a repeated
    selector. -/
theorem Finding.lineFeed_mem_line_iff (finding : Finding) :
    '\n' ∈ finding.line.toList ↔ '\n' ∈ finding.span.file.toList ∨
      ∃ selector, finding.problem = .duplicateSelector selector ∧ '\n' ∈ selector := by
  have separator : '\n' ∉ " - ".toList := by decide
  simp only [line, String.toList_append, List.mem_append, separator, or_false,
    Span.lineFeed_mem_render_iff, Problem.lineFeed_mem_text_iff]

/-- A count and its noun are written without line feeds. -/
theorem Report.lineFeed_not_mem_counted (count : Nat) {noun : String}
    (single : '\n' ∉ noun.toList) : '\n' ∉ (counted count noun).toList := by
  have digits : '\n' ∉ count.repr.toList := not_mem_repr _ _ (by decide)
  have space : '\n' ∉ " ".toList := by decide
  have letter : '\n' ∉ "s".toList := by decide
  rw [counted]
  split <;>
    simp only [String.toList_append, List.mem_append, digits, space, letter, single, or_self,
      not_false_eq_true]

/-- The summary is one line. -/
theorem Report.lineFeed_not_mem_summary (report : Report) : '\n' ∉ report.summary.toList := by
  have problems := lineFeed_not_mem_counted report.findings.length
    (show '\n' ∉ "problem".toList by decide)
  have files := lineFeed_not_mem_counted report.sheets (show '\n' ∉ "file".toList by decide)
  simp [summary, String.toList_append, problems, files]

/-- Without colors, a text report is the lines of its findings and its summary, each with a line
    feed behind it. -/
theorem Report.toList_toText (report : Report) :
    (report.toText false).toList =
      ((report.lines ++ [report.summary]).map String.toList).flatMap (· ++ ['\n']) := by
  have plain : report.findings.map (textLine false) = report.lines := rfl
  have lineFeed : "\n".toList = ['\n'] := by decide
  rw [toText, plain, String.toList_join]
  simp only [List.flatMap_map, String.toList_append, lineFeed]

/-- The lines of a text report hold no line feed exactly when those of its findings hold none. -/
theorem Report.single_lines_iff (report : Report) :
    (∀ line ∈ (report.lines ++ [report.summary]).map String.toList, '\n' ∉ line) ↔
      ∀ finding ∈ report.findings, '\n' ∉ finding.line.toList := by
  rw [List.forall_mem_map, List.forall_mem_append, List.forall_mem_singleton, lines,
    List.forall_mem_map]
  exact and_iff_left report.lineFeed_not_mem_summary

/-- The findings of stylesheets are what their preludes are due. -/
theorem Inspection.mem_inspect_iff (sheets : List (String × List Char)) (finding : Finding) :
    finding ∈ (inspect sheets).value ↔ Due (sheetPreludes sheets) finding := by
  obtain ⟨inspection, value, account⟩ := account_inspect sheets
  rw [value, account.exact, due_iff]

/-- What is due is due at the span of a prelude. -/
theorem Inspection.Due.exists_head {heads : List Prelude} {finding : Finding}
    (due : Due heads finding) : ∃ head ∈ heads, finding.span = head.span := by
  cases due with
  | attributeSelector member _ => exact ⟨_, member, rfl⟩
  | combinator member _ => exact ⟨_, member, rfl⟩
  | idSelector member _ _ => exact ⟨_, member, rfl⟩
  | elementSelector member _ _ => exact ⟨_, member, rfl⟩
  | duplicateSelector noted _ =>
    obtain ⟨head, member, inHead⟩ := List.mem_flatMap.mp noted
    obtain ⟨fragment, _, inFragment⟩ := List.mem_flatMap.mp inHead
    refine ⟨head, member, ?_⟩
    rw [notesOfFragment] at inFragment
    split at inFragment
    · exact congrArg Prod.snd (List.mem_singleton.mp inFragment)
    · cases inFragment

/-- A repeated selector is due exactly when it occurs twice. -/
theorem Inspection.due_duplicate_iff {heads : List Prelude} {span : Span} {selector : List Char} :
    Due heads ⟨span, .duplicateSelector selector⟩ ↔
      (selector, span) ∈ classOccurrences heads ∧
        2 ≤ (occurrencesOf (classOccurrences heads) selector).length := by
  constructor
  · rintro ⟨⟩
    exact ⟨‹_›, ‹_›⟩
  · rintro ⟨noted, twice⟩
    exact .duplicateSelector noted twice

/-- The span of a prelude names its stylesheet. -/
theorem Stylesheet.file_of_mem_preludes {file : String} {source : List Char} {head : Prelude}
    (member : head ∈ preludes file source) : head.span.file = file := by
  obtain ⟨place, emitted⟩ := (mem_preludes_iff_emittedAt file source head).mp member
  obtain ⟨_, before, stretch, _, rfl, _⟩ := emitted.exists_found
  rfl

/-- A finding names a stylesheet that was read. -/
theorem Inspection.file_of_mem_inspect {sheets : List (String × List Char)} {finding : Finding}
    (member : finding ∈ (inspect sheets).value) :
    ∃ sheet ∈ sheets, finding.span.file = sheet.1 := by
  obtain ⟨head, inSheets, sameSpan⟩ := ((mem_inspect_iff sheets finding).mp member).exists_head
  obtain ⟨sheet, isSheet, inSheet⟩ := List.mem_flatMap.mp inSheets
  exact ⟨sheet, isSheet, sameSpan ▸ file_of_mem_preludes inSheet⟩

/-- The report of stylesheets that are read in one run. -/
def Report.ofSheets (sheets : List (String × List Char)) : Report where
  findings := (inspect sheets).value
  sheets := sheets.length

/-- No class selector that occurs twice in stylesheets holds a line feed. -/
def RepeatedOnOneLine (sheets : List (String × List Char)) : Prop :=
  ∀ occurrence ∈ classOccurrences (sheetPreludes sheets),
    2 ≤ (occurrencesOf (classOccurrences (sheetPreludes sheets)) occurrence.1).length →
      '\n' ∉ occurrence.1

instance (sheets : List (String × List Char)) : Decidable (RepeatedOnOneLine sheets) :=
  inferInstanceAs (Decidable (∀ occurrence ∈ _, _))

/-- In stylesheets whose names hold no line feed, the findings are single lines exactly when no
    class selector that occurs twice holds a line feed. -/
theorem single_line_findings_iff {sheets : List (String × List Char)}
    (names : ∀ sheet ∈ sheets, '\n' ∉ sheet.1.toList) :
    (∀ finding ∈ (inspect sheets).value, '\n' ∉ finding.line.toList) ↔
      RepeatedOnOneLine sheets := by
  constructor
  · intro single occurrence noted twice inSelector
    have due : Due (sheetPreludes sheets) ⟨occurrence.2, .duplicateSelector occurrence.1⟩ :=
      .duplicateSelector noted twice
    apply single _ ((mem_inspect_iff sheets _).mpr due)
    rw [Finding.lineFeed_mem_line_iff]
    exact .inr ⟨occurrence.1, rfl, inSelector⟩
  · intro single finding member inLine
    rcases (Finding.lineFeed_mem_line_iff finding).mp inLine with
      inName | ⟨selector, isDuplicate, inSelector⟩
    · obtain ⟨sheet, isSheet, sameName⟩ := file_of_mem_inspect member
      exact names sheet isSheet (sameName ▸ inName)
    · obtain ⟨span, problem⟩ := finding
      obtain rfl : problem = .duplicateSelector selector := isDuplicate
      obtain ⟨noted, twice⟩ := due_duplicate_iff.mp ((mem_inspect_iff sheets _).mp member)
      exact single (selector, span) noted twice inSelector

/-- The text report of stylesheets whose names hold no line feed has one line for each finding and
    one for the summary exactly when no class selector that occurs twice holds a line feed; and
    exactly then dividing the report at line feeds gives back the lines of the findings, in order,
    and the summary. -/
theorem text_report_lines_iff (sheets : List (String × List Char))
    (names : ∀ sheet ∈ sheets, '\n' ∉ sheet.1.toList) :
    (((Report.ofSheets sheets).toText false).toList.count '\n' =
        (Report.ofSheets sheets).findings.length + 1 ↔ RepeatedOnOneLine sheets) ∧
    (((Report.ofSheets sheets).toText false).toList.splitOn '\n' =
        ((Report.ofSheets sheets).lines ++ [(Report.ofSheets sheets).summary]).map String.toList ++
          [[]] ↔ RepeatedOnOneLine sheets) := by
  have single := (Report.single_lines_iff (Report.ofSheets sheets)).trans
    (single_line_findings_iff names)
  have count : (Report.ofSheets sheets).findings.length + 1 =
      (((Report.ofSheets sheets).lines ++ [(Report.ofSheets sheets).summary]).map
        String.toList).length := by
    simp [Report.lines]
  rw [Report.toList_toText, count, count_lines_iff, splitOn_lines_iff]
  exact ⟨single, single⟩

/-- A class selector that goes over two lines does no harm as long as it occurs once. -/
theorem text_report_lines_iff_once : ∃ sheets : List (String × List Char),
    (∀ sheet ∈ sheets, '\n' ∉ sheet.1.toList) ∧ RepeatedOnOneLine sheets ∧
      (Report.ofSheets sheets).findings.length = 2 ∧
      ((Report.ofSheets sheets).toText false).toList.splitOn '\n' =
        ((Report.ofSheets sheets).lines ++ [(Report.ofSheets sheets).summary]).map String.toList ++
          [[]] := by
  have names : ∀ sheet ∈ [("a.css", ".a\n.b\x7bx\x7d.c\x7bx\x7d.c\x7bx\x7d".toList)],
      '\n' ∉ sheet.1.toList := by decide
  have single :
      RepeatedOnOneLine [("a.css", ".a\n.b\x7bx\x7d.c\x7bx\x7d.c\x7bx\x7d".toList)] := by
    decide +kernel
  exact ⟨_, names, single, by decide +kernel, (text_report_lines_iff _ names).2.mpr single⟩

/-- A class selector that goes over two lines and occurs twice: the two findings and the summary
    take five lines, and dividing the report does not give the findings back. -/
theorem text_report_over_several_lines : ∃ sheets : List (String × List Char),
    (∀ sheet ∈ sheets, '\n' ∉ sheet.1.toList) ∧ (Report.ofSheets sheets).findings.length = 2 ∧
      ((Report.ofSheets sheets).toText false).toList.count '\n' = 5 ∧
      ((Report.ofSheets sheets).toText false).toList.splitOn '\n' ≠
        ((Report.ofSheets sheets).lines ++ [(Report.ofSheets sheets).summary]).map String.toList ++
          [[]] := by
  refine ⟨[("a.css", ".a\n.b\x7bx\x7d.a\n.b\x7bx\x7d".toList)], ?_⟩
  decide +kernel

end SelectorLint
