import SelectorLint.Proofs.Inspection.Exactness

/-!
# What a session writes

A session writes to two places: it inserts findings into its collection and it stores the latest
occurrence of each class selector. An insertion may leave no trace, since a collection keeps the
first finding with a line and drops the others. To speak about dropped findings as well, the
writes of a session are listed in order, each from what the inspection holds at that moment, and
performing them on a fresh inspection gives the inspection that the session leaves.

A finding that is dropped is then always one that is there: among the findings that a session
writes, equal lines are lines of equal findings. This rests on the selectors. No part of a
prelude holds a plain space, and without one in the selector a line can be read back from its
end. Findings in general are not told apart by their lines.
-/

namespace SelectorLint.Inspection

open Log Selector Stylesheet

/-- One write of an inspection. -/
inductive Write where
  /-- Counts a stylesheet. -/
  | countSheet
  /-- Counts a prelude. -/
  | countPrelude
  /-- Inserts a finding into the collection. -/
  | insert (finding : Finding)
  /-- Stores the latest occurrence of a selector. -/
  | store (selector : List Char) (finding : Finding)
  deriving DecidableEq, Repr

/-- The finding that is inserted or stored. -/
def Write.finding? : Write → Option Finding
  | countSheet => none
  | countPrelude => none
  | insert finding => some finding
  | store _ finding => some finding

/-- Performs one write. -/
def perform (inspection : Inspection) : Write → Inspection
  | .countSheet => { inspection with sheets := inspection.sheets + 1 }
  | .countPrelude => { inspection with preludes := inspection.preludes + 1 }
  | .insert finding => { inspection with findings := inspection.findings.insertIfNew finding }
  | .store selector finding =>
    { inspection with occurrences := inspection.occurrences.put selector finding }

/-- Performs writes in order. -/
def replay (writes : List Write) (inspection : Inspection) : Inspection :=
  writes.foldl perform inspection

/-- Writes are performed in order, so those of two lists one list after the other. -/
theorem replay_append (first second : List Write) (inspection : Inspection) :
    replay (first ++ second) inspection = replay second (replay first inspection) :=
  List.foldl_append

/-- The writes of steps that are taken one after the other, each from what the writes before it
    leave. -/
def writesOver {α : Type} (writes : Inspection → α → List Write) :
    Inspection → List α → List Write
  | _, [] => []
  | inspection, item :: rest =>
    writes inspection item ++ writesOver writes (replay (writes inspection item) inspection) rest

/-- Examining a part of a prelude inserts what it flags. A class selector is stored; when it
    occurred before, its latest occurrence and this one are inserted. -/
def fragmentWrites (span : Span) (inspection : Inspection) (fragment : List Char) : List Write :=
  match Kind.ofText fragment with
  | .id => [.insert ⟨span, .idSelector⟩]
  | .cssClass =>
    .store fragment ⟨span, .duplicateSelector fragment⟩ ::
      match inspection.occurrences.latest? fragment with
      | none => []
      | some previous => [.insert previous, .insert ⟨span, .duplicateSelector fragment⟩]
  | .pseudoClass => []
  | .element => [.insert ⟨span, .elementSelector⟩]

/-- What examining a prelude writes before it comes to the parts. -/
def flagWrites (head : Prelude) : List Write :=
  .countPrelude ::
    ((if (strip head.text).hasAttribute then [.insert ⟨head.span, .attributeSelector⟩] else []) ++
      (partsOf head).combinators.map fun combinator => .insert ⟨head.span, .combinator combinator⟩)

/-- What examining a prelude writes. -/
def headWrites (inspection : Inspection) (head : Prelude) : List Write :=
  flagWrites head ++
    writesOver (fragmentWrites head.span) (replay (flagWrites head) inspection)
      (partsOf head).fragments

/-- What taking in an emission writes. -/
def emissionWrites (inspection : Inspection) (emission : Emission) : List Write :=
  match emission.prelude? with
  | some head => headWrites inspection head
  | none => []

/-- What answering a request writes. -/
def callWrites (inspection : Inspection) : Call → List Write
  | .sheet file text =>
    .countSheet ::
      writesOver emissionWrites (inspection.perform .countSheet) (emissions file text)
  | .prelude head => headWrites inspection head

/-- The writes of a session, in order. -/
def sessionWrites (calls : List Call) : List Write := writesOver callWrites {} calls

/-- The findings that a session inserts or stores, in order and with repetitions. -/
def handled (calls : List Call) : List Finding := (sessionWrites calls).filterMap Write.finding?

/-- A fold of steps performs the writes of its steps. -/
theorem value_foldlM_eq_replay {α : Type} (step : Inspection → α → Logged Inspection)
    (writes : Inspection → α → List Write)
    (steps : ∀ inspection item, (step inspection item).value =
      replay (writes inspection item) inspection)
    (inspection : Inspection) (items : List α) :
    (items.foldlM step inspection).value =
      replay (writesOver writes inspection items) inspection := by
  induction items generalizing inspection with
  | nil => rfl
  | cons item rest inductionHypothesis =>
    rw [List.foldlM_cons, Logged.value_bind, steps, inductionHypothesis, writesOver, replay_append]

/-- Examining a part of a prelude performs its writes. -/
theorem examineFragment_eq_replay (span : Span) (inspection : Inspection) (fragment : List Char) :
    (examineFragment span inspection fragment).value =
      replay (fragmentWrites span inspection fragment) inspection := by
  cases kind : Kind.ofText fragment with
  | id =>
    simp only [examineFragment, fragmentWrites, kind]
    rfl
  | cssClass =>
    simp only [examineFragment, fragmentWrites, kind]
    cases latest : inspection.occurrences.latest? fragment with
    | none =>
      simp only [noteClass, latest]
      rfl
    | some previous =>
      simp only [noteClass, latest]
      rfl
  | pseudoClass =>
    simp only [examineFragment, fragmentWrites, kind]
    rfl
  | element =>
    simp only [examineFragment, fragmentWrites, kind]
    rfl

/-- Examining a prelude performs its writes. -/
theorem examine_eq_replay (inspection : Inspection) (head : Prelude) :
    (inspection.examine head).value = replay (headWrites inspection head) inspection := by
  have flagged : ((partsOf head).combinators.foldlM (examineCombinator head)
      (if (strip head.text).hasAttribute then
        (inspection.perform .countPrelude).flag head.span .attributeSelector
      else inspection.perform .countPrelude)).value = replay (flagWrites head) inspection := by
    rw [Logged.value_foldlM, flagWrites, replay, List.foldl_cons, List.foldl_append, List.foldl_map]
    split <;> rfl
  have fragments := value_foldlM_eq_replay (examineFragment head.span) (fragmentWrites head.span)
    (examineFragment_eq_replay head.span) (replay (flagWrites head) inspection)
    (partsOf head).fragments
  rw [headWrites, replay_append, ← fragments, ← flagged]
  simp only [examine, Logged.value_bind]
  rfl

/-- Answering a request performs its writes. -/
theorem answer_eq_replay (inspection : Inspection) (call : Call) :
    (inspection.answer call).value = replay (callWrites inspection call) inspection := by
  cases call with
  | prelude head => exact examine_eq_replay inspection head
  | sheet file text =>
    have taken := value_foldlM_eq_replay (take file) emissionWrites (by
      intro inspection emission
      rw [take, Logged.value_bind, emissionWrites]
      cases emission.prelude? with
      | some head => exact examine_eq_replay inspection head
      | none => rfl) (inspection.perform .countSheet) (emissions file text)
    exact taken

/-- A write whose finding, if it has one, has no space in its selector. -/
def Write.Spaceless (write : Write) : Prop :=
  ∀ finding ∈ write.finding?, finding.problem.Spaceless

/-- A write is spaceless when its one finding is. -/
theorem Write.Spaceless.of_finding {write : Write} {finding : Finding}
    (writes : write.finding? = some finding) (spaceless : finding.problem.Spaceless) :
    write.Spaceless := by
  intro other isOther
  obtain rfl : finding = other := Option.some.inj (writes.symm.trans isOther)
  exact spaceless

/-- An inspection whose stored occurrences have no space in their selectors. -/
def Spaceless (inspection : Inspection) : Prop :=
  ∀ selector, ∀ finding ∈ inspection.occurrences.latest? selector, finding.problem.Spaceless

/-- A spaceless write keeps an inspection spaceless. -/
theorem Spaceless.perform {inspection : Inspection} (spaceless : inspection.Spaceless)
    {write : Write} (writeSpaceless : write.Spaceless) :
    (inspection.perform write).Spaceless := by
  cases write with
  | countSheet => exact spaceless
  | countPrelude => exact spaceless
  | insert finding => exact spaceless
  | store selector finding =>
    intro other latest isLatest
    rw [Inspection.perform, latest?_put] at isLatest
    split at isLatest
    · exact writeSpaceless latest isLatest
    · exact spaceless other latest isLatest

/-- Spaceless writes keep an inspection spaceless. -/
theorem Spaceless.replay {inspection : Inspection} (spaceless : inspection.Spaceless)
    {writes : List Write} (writesSpaceless : ∀ write ∈ writes, write.Spaceless) :
    (replay writes inspection).Spaceless := by
  induction writes generalizing inspection with
  | nil => exact spaceless
  | cons write rest inductionHypothesis =>
    rw [List.forall_mem_cons] at writesSpaceless
    exact inductionHypothesis (spaceless.perform writesSpaceless.1) writesSpaceless.2

/-- Steps that write spaceless findings, each from a spaceless inspection, do so one after the
    other. -/
theorem Spaceless.writesOver {α : Type} {writes : Inspection → α → List Write} {items : List α}
    (steps : ∀ item ∈ items, ∀ {inspection : Inspection}, inspection.Spaceless →
      ∀ write ∈ writes inspection item, write.Spaceless)
    {inspection : Inspection} (spaceless : inspection.Spaceless) :
    ∀ write ∈ writesOver writes inspection items, write.Spaceless := by
  induction items generalizing inspection with
  | nil => exact fun _ member => absurd member List.not_mem_nil
  | cons item rest inductionHypothesis =>
    have first := steps item List.mem_cons_self spaceless
    intro write member
    rcases List.mem_append.mp member with now | later
    · exact first write now
    · refine inductionHypothesis ?_ (spaceless.replay first) write later
      intro other further
      exact steps other (List.mem_cons_of_mem item further)

/-- A part of a prelude without spaces writes spaceless findings: its own, and the latest
    occurrence that was stored before. -/
theorem Spaceless.fragmentWrites {inspection : Inspection} (spaceless : inspection.Spaceless)
    (span : Span) {fragment : List Char} (noSpace : ' ' ∉ fragment) :
    ∀ write ∈ fragmentWrites span inspection fragment, write.Spaceless := by
  intro write member
  rw [Inspection.fragmentWrites] at member
  split at member
  · rw [List.mem_singleton.mp member]
    exact .of_finding rfl trivial
  · rcases List.mem_cons.mp member with rfl | further
    · exact .of_finding rfl noSpace
    · cases latest : inspection.occurrences.latest? fragment with
      | none =>
        rw [latest] at further
        cases further
      | some previous =>
        rw [latest] at further
        rcases List.mem_cons.mp further with rfl | last
        · exact .of_finding rfl (spaceless fragment previous latest)
        · rw [List.mem_singleton.mp last]
          exact .of_finding rfl noSpace
  · cases member
  · rw [List.mem_singleton.mp member]
    exact .of_finding rfl trivial

/-- Before it comes to the parts, examining a prelude writes fixed problems only. -/
theorem spaceless_of_mem_flagWrites {head : Prelude} {write : Write}
    (member : write ∈ flagWrites head) : write.Spaceless := by
  rcases List.mem_cons.mp member with rfl | further
  · rintro finding ⟨⟩
  · rcases List.mem_append.mp further with bracket | joint
    · split at bracket
      · rw [List.mem_singleton.mp bracket]
        exact .of_finding rfl trivial
      · cases bracket
    · obtain ⟨combinator, _, rfl⟩ := List.mem_map.mp joint
      exact .of_finding rfl trivial

/-- Examining a prelude writes spaceless findings, since its parts have no spaces. -/
theorem Spaceless.headWrites {inspection : Inspection} (spaceless : inspection.Spaceless)
    (head : Prelude) : ∀ write ∈ headWrites inspection head, write.Spaceless := by
  have flags : ∀ write ∈ flagWrites head, write.Spaceless :=
    fun _ member => spaceless_of_mem_flagWrites member
  have fragments : ∀ write ∈ Inspection.writesOver (Inspection.fragmentWrites head.span)
      (Inspection.replay (flagWrites head) inspection) (partsOf head).fragments,
      write.Spaceless := by
    refine Spaceless.writesOver ?_ (spaceless.replay flags)
    intro fragment member current currentSpaceless
    exact currentSpaceless.fragmentWrites head.span (Parts.space_not_mem_fragment member)
  intro write member
  rcases List.mem_append.mp member with flag | fragment
  · exact flags write flag
  · exact fragments write fragment

/-- Answering a request writes spaceless findings. -/
theorem Spaceless.callWrites {inspection : Inspection} (spaceless : inspection.Spaceless)
    (call : Call) : ∀ write ∈ callWrites inspection call, write.Spaceless := by
  cases call with
  | prelude head => exact spaceless.headWrites head
  | sheet file text =>
    have taken : ∀ write ∈ Inspection.writesOver emissionWrites
        (inspection.perform .countSheet) (emissions file text), write.Spaceless := by
      refine Spaceless.writesOver ?_ spaceless
      intro emission _ current currentSpaceless write member
      rw [emissionWrites] at member
      split at member
      · exact currentSpaceless.headWrites _ write member
      · cases member
    intro write member
    rcases List.mem_cons.mp member with rfl | further
    · rintro finding ⟨⟩
    · exact taken write further

/-- No finding that a session inserts or stores has a space in its selector. -/
theorem spaceless_of_mem_handled {calls : List Call} {finding : Finding}
    (member : finding ∈ handled calls) : finding.problem.Spaceless := by
  have fresh : Spaceless {} := by
    rintro selector finding ⟨⟩
  obtain ⟨write, written, isFinding⟩ := List.mem_filterMap.mp member
  exact fresh.writesOver (fun call _ _ current => current.callWrites call) write written finding
    isFinding

/-- With spaces in a selector two findings can have one line: a part of the selector can be taken
    for a part of a longer file name. -/
theorem exists_line_collision : ∃ first second : Finding,
    first.line = second.line ∧ first ≠ second := by
  refine ⟨⟨⟨"a", ⟨1, 1⟩, ⟨1, 1⟩⟩, .duplicateSelector "b:2:2-2:2 - duplicate selector 'c".toList⟩,
    ⟨⟨"a:1:1-1:1 - duplicate selector 'b", ⟨2, 2⟩, ⟨2, 2⟩⟩, .duplicateSelector "c".toList⟩, ?_, ?_⟩
  · decide +kernel
  · decide

/-- Telling findings apart by their lines merges no two of a session. A session performs the
    listed writes; whatever two findings it inserts or stores, with the same line they are the
    same finding. A selector in them has no space. Without that, lines do not tell findings
    apart. -/
theorem handled_line_injective (calls : List Call) :
    (calls.foldlM answer {}).value = replay (sessionWrites calls) {} ∧
    (∀ first ∈ handled calls, ∀ second ∈ handled calls,
      first.line = second.line → first = second) ∧
    (∀ finding ∈ handled calls, ∀ selector,
      finding.problem = .duplicateSelector selector → ' ' ∉ selector) ∧
    ∃ first second : Finding, first.line = second.line ∧ first ≠ second := by
  refine ⟨value_foldlM_eq_replay answer callWrites answer_eq_replay {} calls, ?_, ?_,
    exists_line_collision⟩
  · intro first member second otherMember sameLine
    exact Finding.eq_of_line_eq (spaceless_of_mem_handled member)
      (spaceless_of_mem_handled otherMember) sameLine
  · intro finding member selector names
    have spaceless := spaceless_of_mem_handled member
    rw [names] at spaceless
    exact spaceless

/-- A session that inserts and stores nine findings, four different ones. The name of one
    stylesheet imitates the line of another. -/
theorem handled_line_injective_imitated : ∃ calls : List Call,
    (handled calls).length = 9 ∧ (calls.foldlM answer {}).value.findings.size = 4 ∧
      ∀ first ∈ handled calls, ∀ second ∈ handled calls,
        first.line = second.line → first = second := by
  refine ⟨[.prelude ⟨".c".toList, ⟨"a:1:1-1:1 - duplicate selector 'b", ⟨2, 2⟩, ⟨2, 2⟩⟩⟩,
    .sheet "b - 1.css" ".c p\x7bx\x7d".toList,
    .prelude ⟨".c".toList, ⟨"a:1:1-1:1 - duplicate selector 'b", ⟨2, 2⟩, ⟨2, 2⟩⟩⟩], ?_, ?_,
    (handled_line_injective _).2.1⟩
  · decide +kernel
  · decide +kernel

end SelectorLint.Inspection
