import SelectorLint.Proofs.Inspection.Account

/-!
# What an inspection reports

A caller may mix stylesheets and single preludes in any order. Whatever the order, the
findings are those that the preludes are due, each once and in the order of their lines.
The description of what is due counts the occurrences of a class selector over all
preludes; the inspection only ever sees the latest one. Since the description does not
mention an order, neither do the findings depend on one.
-/

namespace SelectorLint.Inspection

open Log Selector Stylesheet

/-- One request of a caller. -/
inductive Call where
  | sheet (file : String) (text : List Char)
  | prelude (head : Prelude)

/-- The preludes that a request has examined. -/
def Call.preludes : Call → List Prelude
  | .sheet file text => Stylesheet.preludes file text
  | .prelude head => [head]

/-- Answers a request. -/
def answer (inspection : Inspection) : Call → Logged Inspection
  | .sheet file text => inspection.readSheet file text
  | .prelude head => inspection.examine head

/-- Answers requests with a fresh inspection and concludes it. -/
def session (calls : List Call) : Logged (List Finding) := do
  let inspection ← calls.foldlM answer {}
  inspection.conclude

/-- The class selectors of preludes, one occurrence for each part that is one. -/
def classOccurrences (heads : List Prelude) : List Occurrence :=
  heads.flatMap notesOf

/-- The findings that preludes are due, over all of them together. -/
inductive Due (heads : List Prelude) : Finding → Prop where
  | attributeSelector {head : Prelude} (member : head ∈ heads)
      (counted : 0 < (strip head.text).attributes) :
      Due heads ⟨head.span, .attributeSelector⟩
  | combinator {head : Prelude} (member : head ∈ heads) {combinator : Combinator}
      (found : combinator ∈ (Parts.ofText (strip head.text).text).combinators) :
      Due heads ⟨head.span, .combinator combinator⟩
  | idSelector {head : Prelude} (member : head ∈ heads) {fragment : List Char}
      (found : fragment ∈ (Parts.ofText (strip head.text).text).fragments)
      (kind : Kind.ofText fragment = .id) :
      Due heads ⟨head.span, .idSelector⟩
  | elementSelector {head : Prelude} (member : head ∈ heads) {fragment : List Char}
      (found : fragment ∈ (Parts.ofText (strip head.text).text).fragments)
      (kind : Kind.ofText fragment = .element) :
      Due heads ⟨head.span, .elementSelector⟩
  | duplicateSelector {selector : List Char} {span : Span}
      (member : (selector, span) ∈ classOccurrences heads)
      (twice : 2 ≤ (occurrencesOf (classOccurrences heads) selector).length) :
      Due heads ⟨span, .duplicateSelector selector⟩

/-- A part of a prelude is flagged as an id or as an element, by its kind. -/
theorem mem_flagsOfFragment_iff (span : Span) (fragment : List Char) (finding : Finding) :
    finding ∈ flagsOfFragment span fragment ↔
      Kind.ofText fragment = .id ∧ finding = ⟨span, .idSelector⟩ ∨
        Kind.ofText fragment = .element ∧ finding = ⟨span, .elementSelector⟩ := by
  cases kind : Kind.ofText fragment <;> simp [flagsOfFragment, kind]

/-- A prelude is flagged for its attribute selectors, for each combinator found in it, and for its
    parts. -/
theorem mem_flagsOf_iff (head : Prelude) (finding : Finding) :
    finding ∈ flagsOf head ↔
      0 < (strip head.text).attributes ∧ finding = ⟨head.span, .attributeSelector⟩ ∨
      (∃ combinator ∈ (partsOf head).combinators,
        finding = ⟨head.span, .combinator combinator⟩) ∨
      ∃ fragment ∈ (partsOf head).fragments,
        finding ∈ flagsOfFragment head.span fragment := by
  rw [flagsOf, List.mem_append, List.mem_append, List.mem_flatMap, List.mem_flatMap]
  refine or_congr ?_ (or_congr ?_ Iff.rfl)
  · by_cases counted : 0 < (strip head.text).attributes <;> simp [Stripped.hasAttribute, counted]
  · simp only [List.mem_singleton]

/-- What preludes are due is what an inspection of them accounts for. -/
theorem due_iff (heads : List Prelude) (finding : Finding) :
    Due heads finding ↔
      finding ∈ heads.flatMap flagsOf ∨ Repeated (classOccurrences heads) finding := by
  rw [List.mem_flatMap]
  constructor
  · intro due
    cases due with
    | attributeSelector member counted =>
      exact .inl ⟨_, member, (mem_flagsOf_iff _ _).mpr (.inl ⟨counted, rfl⟩)⟩
    | combinator member found =>
      exact .inl ⟨_, member, (mem_flagsOf_iff _ _).mpr (.inr (.inl ⟨_, found, rfl⟩))⟩
    | idSelector member found kind =>
      refine .inl ⟨_, member, (mem_flagsOf_iff _ _).mpr (.inr (.inr ⟨_, found, ?_⟩))⟩
      exact (mem_flagsOfFragment_iff _ _ _).mpr (.inl ⟨kind, rfl⟩)
    | elementSelector member found kind =>
      refine .inl ⟨_, member, (mem_flagsOf_iff _ _).mpr (.inr (.inr ⟨_, found, ?_⟩))⟩
      exact (mem_flagsOfFragment_iff _ _ _).mpr (.inr ⟨kind, rfl⟩)
    | duplicateSelector member twice => exact .inr ⟨_, member, rfl, twice⟩
  · rintro (⟨head, member, flagged⟩ | ⟨occurrence, member, rfl, twice⟩)
    · rcases (mem_flagsOf_iff head finding).mp flagged with
        ⟨counted, rfl⟩ | ⟨combinator, found, rfl⟩ | ⟨fragment, found, flagged⟩
      · exact .attributeSelector member counted
      · exact .combinator member found
      · rcases (mem_flagsOfFragment_iff _ _ _).mp flagged with ⟨kind, rfl⟩ | ⟨kind, rfl⟩
        · exact .idSelector member found kind
        · exact .elementSelector member found kind
    · exact .duplicateSelector member twice

/-- Answering a request accounts for its preludes. -/
theorem Account.answer {inspection : Inspection} {flagged : List Finding}
    {noted : List Occurrence} (account : Account inspection flagged noted) (call : Call) :
    Account (inspection.answer call).value (flagged ++ call.preludes.flatMap flagsOf)
      (noted ++ call.preludes.flatMap notesOf) := by
  cases call with
  | sheet file text => exact account.readSheet file text
  | prelude head =>
    rw [Call.preludes, List.flatMap_singleton, List.flatMap_singleton]
    exact account.examine head

/-- A session accounts for the preludes of all its requests. -/
theorem account_session (calls : List Call) :
    ∃ inspection : Inspection, (session calls).value = inspection.findings.toList ∧
      Account inspection ((calls.flatMap Call.preludes).flatMap flagsOf)
        (classOccurrences (calls.flatMap Call.preludes)) := by
  have answered := Account.fresh.foldlM answer (fun call => call.preludes.flatMap flagsOf)
    (fun call => call.preludes.flatMap notesOf) calls
    fun call _ _ _ _ account => account.answer call
  rw [← List.flatMap_assoc, ← List.flatMap_assoc, List.nil_append, List.nil_append] at answered
  exact ⟨_, rfl, answered⟩

/-- The findings of a session come in the strict order of their lines, and they are exactly
    the ones that the preludes of its requests are due. -/
theorem session_exact (calls : List Call) :
    ((session calls).value.Pairwise fun first second =>
      lineBefore first.line second.line = true) ∧
    ∀ finding, finding ∈ (session calls).value ↔ Due (calls.flatMap Call.preludes) finding := by
  obtain ⟨inspection, value, account⟩ := account_session calls
  rw [value]
  refine ⟨account.ordered.pairwise_toList, ?_⟩
  intro finding
  rw [account.exact, due_iff]

/-- The preludes of stylesheets, in order. -/
def sheetPreludes (sheets : List (String × List Char)) : List Prelude :=
  sheets.flatMap fun sheet => Stylesheet.preludes sheet.1 sheet.2

/-- Reading stylesheets in one run is a session with a request for each, so it accounts for
    their preludes. -/
theorem account_inspect (sheets : List (String × List Char)) :
    ∃ inspection : Inspection, (inspect sheets).value = inspection.findings.toList ∧
      Account inspection ((sheetPreludes sheets).flatMap flagsOf)
        (classOccurrences (sheetPreludes sheets)) := by
  have requests := account_session (sheets.map fun sheet => .sheet sheet.1 sheet.2)
  rw [session, List.foldlM_map, List.flatMap_map] at requests
  exact requests

/-- An occurrence is repeated wherever it stands among the others. -/
theorem repeated_perm {noted other : List Occurrence} (permuted : noted.Perm other)
    (finding : Finding) : Repeated noted finding ↔ Repeated other finding := by
  have sameLength (selector : List Char) :
      (occurrencesOf noted selector).length = (occurrencesOf other selector).length :=
    (permuted.filter _).length_eq
  simp only [Repeated, permuted.mem_iff, sameLength]

/-- The findings of stylesheets do not depend on the order in which they are read. Reading
    them in another order permutes what is flagged and noted, which the findings do not
    show. -/
theorem inspect_perm {sheets other : List (String × List Char)} (permuted : sheets.Perm other) :
    (inspect sheets).value = (inspect other).value := by
  obtain ⟨inspection, value, account⟩ := account_inspect sheets
  obtain ⟨otherInspection, otherValue, otherAccount⟩ := account_inspect other
  have heads : (sheetPreludes sheets).Perm (sheetPreludes other) := permuted.flatMap_right _
  have noted : (classOccurrences (sheetPreludes sheets)).Perm
      (classOccurrences (sheetPreludes other)) := heads.flatMap_right _
  rw [value, otherValue]
  refine account.ordered.toList_eq otherAccount.ordered ?_
  intro finding
  rw [account.exact, otherAccount.exact, (heads.flatMap_right _).mem_iff, repeated_perm noted]

/-- Three stylesheets share a class selector. The one in the middle is paired with other
    occurrences when the order is reversed. -/
theorem inspect_reversed_shared_class :
    (inspect [("a.css", ".x\x7ba\x7d".toList), ("b.css", ".x\x7ba\x7d".toList),
      ("a.css", "p\x7ba\x7d.x\x7ba\x7d".toList)]).value =
    (inspect [("a.css", "p\x7ba\x7d.x\x7ba\x7d".toList), ("b.css", ".x\x7ba\x7d".toList),
      ("a.css", ".x\x7ba\x7d".toList)]).value ∧
    (inspect [("a.css", ".x\x7ba\x7d".toList), ("b.css", ".x\x7ba\x7d".toList),
      ("a.css", "p\x7ba\x7d.x\x7ba\x7d".toList)]).value.length = 4 :=
  ⟨inspect_perm (List.reverse_perm _).symm, by decide +kernel⟩

end SelectorLint.Inspection
