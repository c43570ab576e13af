import SelectorLint.Proofs.Inspection.Exactness
import SelectorLint.Proofs.Stylesheet.Spans

/-!
# Spans of one stylesheet are in order

Of two preludes of one stylesheet, the one emitted first begins first, ends first, and ends
before the other begins. Its own end may come before its own beginning, so this does not follow
from each span by itself. What separates the two is the body of the first rule: it is left by a
closing brace behind the opening one, that closing brace is a boundary, and the other prelude
begins there or later. So the invariant of a run behind an opening brace is that the body is
still open or that a boundary has come since.

Different rules of a stylesheet therefore have different spans, and what is reported about them
has different lines.
-/

namespace SelectorLint.Stylesheet

open Text

/-- A text that ended with an opening brace lies in front of the boundary, or the body that the
    brace opened is still open. -/
def Passes (seen before stretch : List Char) (machine : Machine) : Prop :=
  seen.length < before.length ∨
    .ruleBody ∈ machine.stack ∧ seen.length ≤ (before ++ stretch).length

/-- A rule that opens lies behind the boundary. -/
theorem Passes.of_topLevel {seen before stretch : List Char} {machine : Machine}
    (passes : Passes seen before stretch machine) (topLevel : machine.stack = []) :
    seen.length < before.length := by
  rcases passes with passed | ⟨inBody, _⟩
  · exact passed
  · rw [topLevel] at inBody
    cases inBody

/-- The brace of a text stays in front of the boundary when the boundary moves. -/
theorem Passes.cut {seen before stretch : List Char} {machine : Machine}
    (passes : Passes seen before stretch machine) (c : Char) (next : Machine) :
    Passes seen (before ++ stretch ++ [c]) [] next := by
  have length : (before ++ stretch ++ [c]).length = before.length + stretch.length + 1 := by
    simp only [List.length_append, List.length_singleton]
  rcases passes with passed | ⟨_, reached⟩
  · exact .inl (by omega)
  · rw [List.length_append] at reached
    exact .inl (by omega)

/-- A longer stretch leaves the body open. -/
theorem Passes.goesOn {seen before stretch : List Char} {machine next : Machine}
    (passes : Passes seen before stretch machine) (c : Char)
    (inBody : .ruleBody ∈ machine.stack → .ruleBody ∈ next.stack) :
    Passes seen before (stretch ++ [c]) next := by
  rcases passes with passed | ⟨body, reached⟩
  · exact .inl passed
  · refine .inr ⟨inBody body, ?_⟩
    rw [← List.append_assoc, List.length_append]
    omega

/-- What a run behind an opening brace emits was found behind a later boundary. -/
theorem Reads.exists_found_of_mem_run {file : String} {before stretch seen : List Char}
    {machine : Machine} (reads : Reads file before stretch machine)
    (passes : Passes seen before stretch machine) (text : List Char) {head : Prelude}
    (opened : .opened head ∈ (machine.run text).2) :
    ∃ front between, head = found file front between ∧
      front ++ between ++ ['{'] <+: before ++ stretch ++ text ∧ seen.length < front.length := by
  induction text generalizing before stretch machine with
  | nil => cases opened
  | cons c rest inductionHypothesis =>
    rw [Machine.run_cons, List.mem_append, Option.mem_toList] at opened
    have whole : before ++ stretch ++ c :: rest = before ++ stretch ++ [c] ++ [] ++ rest := by
      simp only [List.append_assoc, List.cons_append, List.nil_append]
    have follows := reads.follows c
    generalize machine.step c = answer at follows opened
    cases follows with
    | goesOn reads inBody =>
      rcases opened with first | later
      · cases first
      · have split : before ++ stretch ++ c :: rest = before ++ (stretch ++ [c]) ++ rest := by
          simp only [List.append_assoc, List.cons_append, List.nil_append]
        rw [split]
        exact inductionHypothesis reads (passes.goesOn c inBody) later
    | cuts reads silent =>
      rcases opened with first | later
      · dsimp only at first
        rw [first] at silent
        cases silent
      · rw [whole]
        exact inductionHypothesis reads (passes.cut c _) later
    | opens reads topLevel brace inBody =>
      rcases opened with first | later
      · obtain rfl : found file before stretch = head := by simpa using first
        refine ⟨before, stretch, rfl, ?_, passes.of_topLevel topLevel⟩
        subst brace
        rw [whole, List.append_nil]
        exact List.prefix_append _ _
      · rw [whole]
        exact inductionHypothesis reads (passes.cut c _) later

/-- A span lies in front of another one in all three respects. -/
structure Span.Precedes (first second : Span) : Prop where
  /-- It begins first. -/
  begins : first.first < second.first
  /-- It ends first. -/
  ends : first.last < second.last
  /-- It ends before the other begins. -/
  apart : first.last < second.first

/-- A prelude precedes one whose boundary is behind its brace. -/
theorem precedes_found (file : String) (before stretch more between : List Char)
    (later : more ≠ []) :
    (found file before stretch).span.Precedes
      (found file (before ++ stretch ++ ['{'] ++ more) between).span := by
  have braced : before ++ stretch ++ ['{'] ≠ [] := by simp
  have start : Grammar.boundary (before ++ stretch ++ ['{'] ++ more) =
      Position.after (before ++ stretch ++ ['{'] ++ more) :=
    if_neg (List.append_ne_nil_of_left_ne_nil braced more)
  have behind : Position.after (before ++ stretch ++ ['{']) <
      Position.after (before ++ stretch ++ ['{'] ++ more) :=
    Position.after_lt_after_append _ later
  have further : Position.after (before ++ stretch ++ ['{'] ++ more) <
      Position.after (before ++ stretch ++ ['{'] ++ more ++ between ++ ['{']) := by
    rw [List.append_assoc (before ++ stretch ++ ['{'] ++ more)]
    exact Position.after_lt_after_append _ (by simp)
  have begun : Grammar.boundary before ≤ Position.after (before ++ stretch ++ ['{']) := by
    rw [Grammar.boundary]
    split
    · exact Position.first_le_after braced
    · rw [List.append_assoc]
      exact le_of_lt (Position.after_lt_after_append before (by simp))
  refine ⟨?_, ?_, ?_⟩
  · rw [found, found, start]
    exact lt_of_le_of_lt begun behind
  · exact Position.beforeBrace_lt_beforeBrace (Position.column_after_pos braced) behind further
  · rw [found, found, start]
    exact lt_of_le_of_lt (Position.beforeBrace_le _) behind

/-- The preludes of a run precede one another in the order of their emission. -/
theorem Reads.pairwise_run {file : String} {before stretch : List Char} {machine : Machine}
    (reads : Reads file before stretch machine) (text : List Char) :
    ((machine.run text).2.filterMap Emission.prelude?).Pairwise
      fun head other => head.span.Precedes other.span := by
  induction text generalizing before stretch machine with
  | nil => exact List.Pairwise.nil
  | cons c rest inductionHypothesis =>
    rw [Machine.run_cons, List.filterMap_append]
    have follows := reads.follows c
    generalize machine.step c = answer at follows
    cases follows with
    | goesOn reads _ => exact inductionHypothesis reads
    | cuts reads silent =>
      rename_i next emission
      have nothing : emission.toList.filterMap Emission.prelude? = [] := by
        cases emission with
        | none => rfl
        | some emission => simpa using silent
      rw [nothing]
      exact inductionHypothesis reads
    | opens reads _ brace inBody =>
      refine List.pairwise_cons.mpr ⟨?_, inductionHypothesis reads⟩
      intro other member
      obtain ⟨emission, emitted, carries⟩ := List.mem_filterMap.mp member
      cases emission with
      | skipped rule token => cases carries
      | opened head =>
        obtain rfl : head = other := Option.some.inj carries
        have passes : Passes (before ++ stretch ++ [c]) (before ++ stretch ++ [c]) [] _ :=
          .inr ⟨inBody, by rw [List.append_nil]⟩
        obtain ⟨front, between, rfl, isPrefix, shorter⟩ :=
          reads.exists_found_of_mem_run passes rest emitted
        -- Both the text up to the brace and the later boundary begin the same source.
        rw [List.append_assoc front, List.append_nil] at isPrefix
        obtain ⟨more, rfl⟩ : before ++ stretch ++ [c] <+: front :=
          List.prefix_of_prefix_length_le (List.prefix_append _ rest)
            ((List.prefix_append front _).trans isPrefix) (Nat.le_of_lt shorter)
        subst brace
        apply precedes_found
        rintro rfl
        exact absurd shorter (by simp)

/-- A span that precedes another is a different one. -/
theorem Span.Precedes.ne {first second : Span} (precedes : first.Precedes second) :
    first ≠ second := by
  rintro rfl
  exact lt_irrefl _ precedes.begins

/-- Everything that an inspection can report about a prelude: what the prelude flags, and its
    class selectors if they are repeated. -/
def reportable (head : Prelude) : List Finding :=
  Inspection.flagsOf head ++ (Inspection.notesOf head).map Inspection.Occurrence.finding

/-- What is reported about a prelude is reported at its span. -/
theorem span_of_mem_reportable {head : Prelude} {finding : Finding}
    (member : finding ∈ reportable head) : finding.span = head.span := by
  rcases List.mem_append.mp member with flagged | noted
  · rcases (Inspection.mem_flagsOf_iff head finding).mp flagged with
      ⟨_, rfl⟩ | ⟨_, _, rfl⟩ | ⟨fragment, _, ofFragment⟩
    · rfl
    · rfl
    · rcases (Inspection.mem_flagsOfFragment_iff _ _ _).mp ofFragment with ⟨_, rfl⟩ | ⟨_, rfl⟩
      · rfl
      · rfl
  · obtain ⟨occurrence, isNoted, rfl⟩ := List.mem_map.mp noted
    obtain ⟨fragment, _, ofFragment⟩ := List.mem_flatMap.mp isNoted
    rw [Inspection.notesOfFragment] at ofFragment
    split at ofFragment
    · rw [List.mem_singleton.mp ofFragment]
      rfl
    · cases ofFragment

/-- What is reported about a prelude is told apart by its line. -/
theorem spaceless_of_mem_reportable {head : Prelude} {finding : Finding}
    (member : finding ∈ reportable head) : finding.problem.Spaceless := by
  have account := Inspection.Account.fresh.examine head
  rw [List.nil_append, List.nil_append] at account
  rcases List.mem_append.mp member with flagged | noted
  · exact account.flaggedSpaceless finding flagged
  · obtain ⟨occurrence, isNoted, rfl⟩ := List.mem_map.mp noted
    exact account.notedSpaceless occurrence isNoted

/-- Spans of one stylesheet are strictly in order: of two preludes the one emitted first begins
    first, ends first and ends before the other begins. So no two rules share a span, and no
    finding about one has the line of a finding about another. -/
theorem preludes_spans_increasing (file : String) (source : List Char) :
    ((preludes file source).Pairwise fun head other =>
      head.span.first < other.span.first ∧ head.span.last < other.span.last ∧
        head.span.last < other.span.first) ∧
    ((preludes file source).map (·.span)).Nodup ∧
    (preludes file source).Pairwise fun head other =>
      ∀ finding ∈ reportable head, ∀ further ∈ reportable other,
        finding.line ≠ further.line := by
  have inOrder : (preludes file source).Pairwise fun head other =>
      head.span.Precedes other.span := (Reads.fresh file).pairwise_run source
  refine ⟨?_, ?_, ?_⟩
  · exact inOrder.imp fun precedes => ⟨precedes.begins, precedes.ends, precedes.apart⟩
  · exact List.pairwise_map.mpr (inOrder.imp fun precedes => precedes.ne)
  · refine inOrder.imp ?_
    intro head other precedes finding member further memberFurther sameLine
    apply precedes.ne
    have same : finding = further := Finding.eq_of_line_eq (spaceless_of_mem_reportable member)
      (spaceless_of_mem_reportable memberFurther) sameLine
    rw [← span_of_mem_reportable member, ← span_of_mem_reportable memberFurther, same]

/-- Two rules as close as they can be. Each span ends before it begins, and they are still in
    order. -/
example : (preludes "a.css" "\x7ba\x7d\x7bb\x7d".toList).map (·.span) =
    [⟨"a.css", ⟨1, 1⟩, ⟨1, 0⟩⟩, ⟨"a.css", ⟨1, 3⟩, ⟨1, 2⟩⟩] := by decide

end SelectorLint.Stylesheet
