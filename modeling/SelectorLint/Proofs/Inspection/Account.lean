import SelectorLint.Inspection
import SelectorLint.Proofs.Finding.Collection
import SelectorLint.Proofs.Finding.Line
import SelectorLint.Proofs.Selector.Parts

/-!
# What an inspection has accounted for

An inspection does not count occurrences: it remembers the latest one of each class
selector and, on a further one, adds that pair to its findings. The invariant that makes
this exact relates an inspection to two lists that it does not keep: the findings flagged
so far and the occurrences of class selectors noted so far. The findings are the flagged
ones and every noted occurrence of a selector that has been noted twice.

Each step of an inspection extends the two lists, and a fold of steps extends them by what
its items contribute. Selectors without spaces keep different findings apart.
-/

namespace SelectorLint.Inspection

open Log Selector Stylesheet

/-- A class selector with the span of the prelude that has it. -/
abbrev Occurrence := List Char × Span

/-- The finding that reports an occurrence. -/
def Occurrence.finding (occurrence : Occurrence) : Finding :=
  ⟨occurrence.2, .duplicateSelector occurrence.1⟩

/-- The occurrences of one selector. -/
def occurrencesOf (noted : List Occurrence) (selector : List Char) : List Occurrence :=
  noted.filter (·.1 = selector)

/-- A finding that reports an occurrence of a selector noted at least twice. -/
def Repeated (noted : List Occurrence) (finding : Finding) : Prop :=
  ∃ occurrence ∈ noted, finding = Occurrence.finding occurrence ∧
    2 ≤ (occurrencesOf noted occurrence.1).length

/-- What one part of a prelude flags. -/
def flagsOfFragment (span : Span) (fragment : List Char) : List Finding :=
  match Kind.ofText fragment with
  | .id => [⟨span, .idSelector⟩]
  | .element => [⟨span, .elementSelector⟩]
  | .cssClass => []
  | .pseudoClass => []

/-- What one part of a prelude notes. -/
def notesOfFragment (span : Span) (fragment : List Char) : List Occurrence :=
  if Kind.ofText fragment = .cssClass then [(fragment, span)] else []

/-- The parts of a prelude once its bracketed parts are taken out. -/
def partsOf (head : Prelude) : Parts := Parts.ofText (strip head.text).text

/-- What a prelude flags: its attribute selectors, its combinators and its parts. -/
def flagsOf (head : Prelude) : List Finding :=
  (if (strip head.text).hasAttribute then [⟨head.span, .attributeSelector⟩] else []) ++
    ((partsOf head).combinators.flatMap (fun combinator => [⟨head.span, .combinator combinator⟩]) ++
      (partsOf head).fragments.flatMap (flagsOfFragment head.span))

/-- What a prelude notes: its class selectors, in order. -/
def notesOf (head : Prelude) : List Occurrence :=
  (partsOf head).fragments.flatMap (notesOfFragment head.span)

/-- The inspection has flagged some findings and noted some occurrences, in this order. -/
structure Account (inspection : Inspection) (flagged : List Finding)
    (noted : List Occurrence) : Prop where
  /-- The collection is as insertions leave it. -/
  ordered : inspection.findings.Ordered
  /-- The latest occurrence of each selector is remembered. -/
  latest : ∀ selector, inspection.occurrences.latest? selector =
    (occurrencesOf noted selector).getLast?.map Occurrence.finding
  /-- The findings are the flagged ones and the occurrences of selectors noted twice. -/
  exact : ∀ finding, finding ∈ inspection.findings.toList ↔
    finding ∈ flagged ∨ Repeated noted finding
  /-- Flagged findings are told apart by their lines. -/
  flaggedSpaceless : ∀ finding ∈ flagged, finding.problem.Spaceless
  /-- So are occurrences. -/
  notedSpaceless : ∀ occurrence ∈ noted, ' ' ∉ occurrence.1

/-- One more occurrence is an occurrence of its own selector only. -/
theorem occurrencesOf_concat (noted : List Occurrence) (occurrence : Occurrence)
    (selector : List Char) :
    occurrencesOf (noted ++ [occurrence]) selector =
      occurrencesOf noted selector ++ if occurrence.1 = selector then [occurrence] else [] := by
  rw [occurrencesOf, List.filter_append, ← occurrencesOf]
  by_cases same : occurrence.1 = selector <;> simp [same]

/-- A repeated selector stays repeated. -/
theorem Repeated.concat {noted : List Occurrence} {finding : Finding}
    (repeated : Repeated noted finding) (occurrence : Occurrence) :
    Repeated (noted ++ [occurrence]) finding := by
  obtain ⟨earlier, member, rfl, twice⟩ := repeated
  refine ⟨earlier, List.mem_append_left _ member, rfl, ?_⟩
  rw [occurrencesOf_concat, List.length_append]
  omega

/-- The first occurrence of a selector repeats nothing. -/
theorem repeated_concat_first {noted : List Occurrence} {occurrence : Occurrence}
    (first : occurrencesOf noted occurrence.1 = []) (finding : Finding) :
    Repeated (noted ++ [occurrence]) finding ↔ Repeated noted finding := by
  constructor
  · rintro ⟨other, member, rfl, twice⟩
    rw [occurrencesOf_concat] at twice
    by_cases same : occurrence.1 = other.1
    · rw [← same, first, if_pos rfl] at twice
      exact absurd twice (by simp)
    · rw [if_neg same, List.append_nil] at twice
      rcases List.mem_append.mp member with before | new
      · exact ⟨other, before, rfl, twice⟩
      · exact absurd (congrArg Prod.fst (List.mem_singleton.mp new).symm) same
  · exact fun repeated => repeated.concat occurrence

/-- A further occurrence of a selector repeats it and the latest one before it. Where there
    is only one before it, that one is the latest; where there are several, they were
    repeated already. -/
theorem repeated_concat_again {noted : List Occurrence} {occurrence previous : Occurrence}
    (again : (occurrencesOf noted occurrence.1).getLast? = some previous) (finding : Finding) :
    Repeated (noted ++ [occurrence]) finding ↔
      (Repeated noted finding ∨ finding = Occurrence.finding previous) ∨
        finding = Occurrence.finding occurrence := by
  have previousMember := List.mem_of_getLast? again
  obtain ⟨previousNoted, previousSame⟩ : previous ∈ noted ∧ previous.1 = occurrence.1 := by
    simpa [occurrencesOf] using previousMember
  have twice : 2 ≤ (occurrencesOf (noted ++ [occurrence]) occurrence.1).length := by
    have positive := List.length_pos_of_mem previousMember
    rw [occurrencesOf_concat, if_pos rfl, List.length_append, List.length_singleton]
    omega
  constructor
  · rintro ⟨other, member, rfl, otherTwice⟩
    rcases List.mem_append.mp member with before | new
    · by_cases alreadyTwice : 2 ≤ (occurrencesOf noted other.1).length
      · exact .inl (.inl ⟨other, before, rfl, alreadyTwice⟩)
      · have same : occurrence.1 = other.1 := by
          by_contra different
          rw [occurrencesOf_concat, if_neg different, List.append_nil] at otherTwice
          exact alreadyTwice otherTwice
        have otherMember : other ∈ occurrencesOf noted occurrence.1 := by
          simpa [occurrencesOf, same] using before
        rw [← same] at alreadyTwice
        obtain ⟨only, single⟩ : ∃ only, occurrencesOf noted occurrence.1 = [only] := by
          apply List.length_eq_one_iff.mp
          have positive := List.length_pos_of_mem previousMember
          omega
        rw [single] at again otherMember
        have onlyPrevious : only = previous := Option.some.inj again
        rw [List.mem_singleton.mp otherMember, onlyPrevious]
        exact .inl (.inr rfl)
    · rw [List.mem_singleton.mp new]
      exact .inr rfl
  · rintro ((repeated | rfl) | rfl)
    · exact repeated.concat occurrence
    · exact ⟨previous, List.mem_append_left _ previousNoted, rfl, previousSame ▸ twice⟩
    · exact ⟨occurrence, List.mem_append_right _ (List.mem_singleton_self _), rfl, twice⟩

/-- The occurrence put last is the latest of its selector; other selectors keep theirs. -/
theorem latest?_put (occurrences : Occurrences) (selector other : List Char) (finding : Finding) :
    (occurrences.put selector finding).latest? other =
      if selector = other then some finding else occurrences.latest? other := by
  rw [Occurrences.latest?, Occurrences.put, List.lookup_cons]
  by_cases same : selector = other
  · simp [same]
  · have different : (other == selector) = false := beq_eq_false_iff_ne.mpr (Ne.symm same)
    rw [different, if_neg same]
    rfl

/-- Among findings that are told apart by their lines, an insertion adds its finding. -/
theorem mem_insertIfNew_of_spaceless {collection : Collection} (ordered : collection.Ordered)
    (spaceless : ∀ present ∈ collection.toList, present.problem.Spaceless) (finding other : Finding)
    (findingSpaceless : finding.problem.Spaceless) :
    other ∈ (collection.insertIfNew finding).toList ↔
      other ∈ collection.toList ∨ other = finding := by
  rw [ordered.mem_insertIfNew]
  constructor
  · rintro (present | ⟨same, _⟩)
    · exact .inl present
    · exact .inr same
  · rintro (present | rfl)
    · exact .inl present
    · by_cases known : other ∈ collection.toList
      · exact .inl known
      · refine .inr ⟨rfl, ?_⟩
        intro present member same
        have equal := Finding.eq_of_line_eq (spaceless present member) findingSpaceless same
        exact known (equal ▸ member)

/-- A pair of insertions adds both findings. -/
theorem mem_insertIfNew_pair {collection : Collection} (ordered : collection.Ordered)
    (spaceless : ∀ present ∈ collection.toList, present.problem.Spaceless)
    (first second other : Finding) (firstSpaceless : first.problem.Spaceless)
    (secondSpaceless : second.problem.Spaceless) :
    other ∈ ((collection.insertIfNew first).insertIfNew second).toList ↔
      (other ∈ collection.toList ∨ other = first) ∨ other = second := by
  have withFirst (present : Finding) :=
    mem_insertIfNew_of_spaceless ordered spaceless first present firstSpaceless
  have stillSpaceless : ∀ present ∈ (collection.insertIfNew first).toList,
      present.problem.Spaceless := by
    intro present member
    rcases (withFirst present).mp member with known | rfl
    · exact spaceless present known
    · exact firstSpaceless
  rw [mem_insertIfNew_of_spaceless (ordered.insertIfNew first) stillSpaceless second other
    secondSpaceless, withFirst]

namespace Account

variable {inspection : Inspection} {flagged : List Finding} {noted : List Occurrence}

/-- A fresh inspection has accounted for nothing. -/
theorem fresh : Account {} [] [] where
  ordered := Collection.ordered_empty
  latest _ := rfl
  exact _ := by simp [Collection.toList, Repeated]
  flaggedSpaceless := by simp
  notedSpaceless := by simp

/-- Counting stylesheets and preludes touches neither list. -/
theorem counted (account : Account inspection flagged noted) (sheets preludes : Nat) :
    Account { inspection with sheets := sheets, preludes := preludes } flagged noted :=
  ⟨account.ordered, account.latest, account.exact, account.flaggedSpaceless,
    account.notedSpaceless⟩

/-- Every finding of an inspection is told apart by its line. -/
theorem spaceless (account : Account inspection flagged noted) (finding : Finding)
    (member : finding ∈ inspection.findings.toList) : finding.problem.Spaceless := by
  rcases (account.exact finding).mp member with isFlagged | ⟨occurrence, isNoted, rfl, _⟩
  · exact account.flaggedSpaceless finding isFlagged
  · exact account.notedSpaceless occurrence isNoted

/-- Flagging a problem adds it to the flagged findings. -/
theorem flag (account : Account inspection flagged noted) (span : Span) {problem : Problem}
    (problemSpaceless : problem.Spaceless) :
    Account (inspection.flag span problem) (flagged ++ [⟨span, problem⟩]) noted where
  ordered := account.ordered.insertIfNew _
  latest := account.latest
  exact finding := by
    have inserted := mem_insertIfNew_of_spaceless account.ordered account.spaceless
      ⟨span, problem⟩ finding problemSpaceless
    rw [Inspection.flag, inserted, account.exact, List.mem_append, List.mem_singleton]
    exact or_right_comm
  flaggedSpaceless finding member := by
    rcases List.mem_append.mp member with before | new
    · exact account.flaggedSpaceless finding before
    · rw [List.mem_singleton.mp new]
      exact problemSpaceless
  notedSpaceless := account.notedSpaceless

/-- Remembering an occurrence keeps the latest of each selector. -/
theorem latest_concat (account : Account inspection flagged noted) (occurrence : Occurrence)
    (selector : List Char) :
    (inspection.occurrences.put occurrence.1 (Occurrence.finding occurrence)).latest? selector =
      (occurrencesOf (noted ++ [occurrence]) selector).getLast?.map Occurrence.finding := by
  rw [latest?_put, occurrencesOf_concat]
  by_cases same : occurrence.1 = selector
  · rw [if_pos same, if_pos same, List.getLast?_concat]
    rfl
  · rw [if_neg same, if_neg same, List.append_nil]
    exact account.latest selector

/-- Noting an occurrence adds it to the noted ones. The first occurrence of a selector adds
    no finding; a further one adds itself and the one before it. -/
theorem noteClass (account : Account inspection flagged noted) (occurrence : Occurrence)
    (spaceless : ' ' ∉ occurrence.1) :
    Account (inspection.noteClass occurrence.2 occurrence.1).value flagged
      (noted ++ [occurrence]) := by
  have notedSpaceless : ∀ other ∈ noted ++ [occurrence], ' ' ∉ other.1 := by
    intro other member
    rcases List.mem_append.mp member with before | new
    · exact account.notedSpaceless other before
    · rw [List.mem_singleton.mp new]
      exact spaceless
  have latest := account.latest occurrence.1
  cases before : (occurrencesOf noted occurrence.1).getLast? with
  | none =>
    rw [before, Option.map_none] at latest
    have first : occurrencesOf noted occurrence.1 = [] := List.getLast?_eq_none_iff.mp before
    simp only [Inspection.noteClass, latest]
    refine ⟨account.ordered, account.latest_concat occurrence, ?_, account.flaggedSpaceless,
      notedSpaceless⟩
    intro finding
    rw [repeated_concat_first first]
    exact account.exact finding
  | some previous =>
    rw [before, Option.map_some] at latest
    have previousNoted : previous ∈ noted :=
      List.mem_of_mem_filter (List.mem_of_getLast? before)
    have previousSpaceless : (Occurrence.finding previous).problem.Spaceless :=
      account.notedSpaceless previous previousNoted
    simp only [Inspection.noteClass, latest]
    refine ⟨(account.ordered.insertIfNew _).insertIfNew _, account.latest_concat occurrence, ?_,
      account.flaggedSpaceless, notedSpaceless⟩
    intro finding
    have inserted := mem_insertIfNew_pair account.ordered account.spaceless
      (Occurrence.finding previous) (Occurrence.finding occurrence) finding previousSpaceless
      spaceless
    refine inserted.trans ?_
    rw [account.exact, repeated_concat_again before, or_assoc, or_assoc, or_assoc]

/-- Examining a part of a prelude flags and notes what the part does. -/
theorem examineFragment (account : Account inspection flagged noted) (span : Span)
    (fragment : List Char) (spaceless : ' ' ∉ fragment) :
    Account (Inspection.examineFragment span inspection fragment).value
      (flagged ++ flagsOfFragment span fragment) (noted ++ notesOfFragment span fragment) := by
  cases kind : Kind.ofText fragment with
  | id =>
    simp only [Inspection.examineFragment, flagsOfFragment, notesOfFragment, kind]
    rw [if_neg (by decide), List.append_nil]
    exact account.flag span trivial
  | cssClass =>
    simp only [Inspection.examineFragment, flagsOfFragment, notesOfFragment, kind]
    rw [if_pos trivial, List.append_nil]
    exact account.noteClass (fragment, span) spaceless
  | pseudoClass =>
    simp only [Inspection.examineFragment, flagsOfFragment, notesOfFragment, kind]
    rw [if_neg (by decide), List.append_nil, List.append_nil]
    exact account
  | element =>
    simp only [Inspection.examineFragment, flagsOfFragment, notesOfFragment, kind]
    rw [if_neg (by decide), List.append_nil]
    exact account.flag span trivial

/-- A fold of steps flags and notes what its items do, in their order. -/
theorem foldlM {α : Type} (step : Inspection → α → Logged Inspection)
    (flags : α → List Finding) (notes : α → List Occurrence) (items : List α)
    (steps : ∀ item ∈ items, ∀ {inspection flagged noted}, Account inspection flagged noted →
      Account (step inspection item).value (flagged ++ flags item) (noted ++ notes item))
    (account : Account inspection flagged noted) :
    Account (items.foldlM step inspection).value (flagged ++ items.flatMap flags)
      (noted ++ items.flatMap notes) := by
  induction items generalizing inspection flagged noted with
  | nil => simpa using account
  | cons item rest inductionHypothesis =>
    have stepped := steps item List.mem_cons_self account
    have folded := inductionHypothesis
      (fun other member => steps other (List.mem_cons_of_mem item member)) stepped
    rw [List.append_assoc, List.append_assoc] at folded
    rw [List.foldlM_cons, Logged.value_bind, List.flatMap_cons, List.flatMap_cons]
    exact folded

/-- Examining a combinator flags it and notes nothing. -/
theorem examineCombinator (account : Account inspection flagged noted) (head : Prelude)
    (combinator : Combinator) :
    Account (Inspection.examineCombinator head inspection combinator).value
      (flagged ++ [⟨head.span, .combinator combinator⟩]) (noted ++ []) := by
  rw [List.append_nil]
  exact account.flag head.span trivial

/-- Examining a prelude flags and notes what the prelude does. -/
theorem examine (account : Account inspection flagged noted) (head : Prelude) :
    Account (inspection.examine head).value (flagged ++ flagsOf head)
      (noted ++ notesOf head) := by
  have counted := account.counted inspection.sheets (inspection.preludes + 1)
  have attributes : Account
      (if (strip head.text).hasAttribute then
        { inspection with preludes := inspection.preludes + 1 }.flag head.span .attributeSelector
      else { inspection with preludes := inspection.preludes + 1 })
      (flagged ++ if (strip head.text).hasAttribute then [⟨head.span, .attributeSelector⟩] else [])
      noted := by
    split
    · exact counted.flag head.span trivial
    · rw [List.append_nil]
      exact counted
  have combinators := attributes.foldlM (Inspection.examineCombinator head)
    (fun combinator => [⟨head.span, .combinator combinator⟩]) (fun _ => [])
    (partsOf head).combinators
    fun combinator _ _ _ _ account => account.examineCombinator head combinator
  have fragments := combinators.foldlM (Inspection.examineFragment head.span)
    (flagsOfFragment head.span) (notesOfFragment head.span) (partsOf head).fragments
    fun fragment member _ _ _ account =>
      account.examineFragment head.span fragment (Parts.space_not_mem_fragment member)
  have nothing : (partsOf head).combinators.flatMap (fun _ => ([] : List Occurrence)) = [] :=
    List.flatMap_eq_nil_iff.mpr fun _ _ => rfl
  rw [nothing, List.append_nil, List.append_assoc, List.append_assoc] at fragments
  simp only [Inspection.examine, Logged.value_bind]
  rw [flagsOf, notesOf]
  exact fragments

/-- Taking in an emission examines the prelude that it carries, if any. -/
theorem take (account : Account inspection flagged noted) (file : String)
    (emission : Emission) :
    Account (Inspection.take file inspection emission).value
      (flagged ++ emission.prelude?.toList.flatMap flagsOf)
      (noted ++ emission.prelude?.toList.flatMap notesOf) := by
  rw [Inspection.take, Logged.value_bind]
  cases emission.prelude? with
  | some head =>
    rw [Option.toList_some, List.flatMap_singleton, List.flatMap_singleton]
    exact account.examine head
  | none =>
    rw [Option.toList_none, List.flatMap_nil, List.flatMap_nil, List.append_nil, List.append_nil]
    exact account

/-- Reading a stylesheet flags and notes what its preludes do. -/
theorem readSheet (account : Account inspection flagged noted) (file : String)
    (text : List Char) :
    Account (inspection.readSheet file text).value
      (flagged ++ (Stylesheet.preludes file text).flatMap flagsOf)
      (noted ++ (Stylesheet.preludes file text).flatMap notesOf) := by
  have counted := account.counted (inspection.sheets + 1) inspection.preludes
  have taken := counted.foldlM (Inspection.take file)
    (fun emission => emission.prelude?.toList.flatMap flagsOf)
    (fun emission => emission.prelude?.toList.flatMap notesOf) (emissions file text)
    fun emission _ _ _ _ account => account.take file emission
  rw [← List.flatMap_assoc, ← List.flatMap_assoc, ← List.filterMap_eq_flatMap_toList] at taken
  exact taken

end Account

end SelectorLint.Inspection
