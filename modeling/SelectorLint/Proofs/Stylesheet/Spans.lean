import SelectorLint.Proofs.Stylesheet.Canonical
import SelectorLint.Proofs.Stylesheet.Clearing
import SelectorLint.Proofs.Stylesheet.Positions

/-!
# Where preludes are reported

A prelude is reported from the last token boundary in front of it to two columns before its
opening brace. The boundary was remembered any number of characters earlier, while comments were
cut out of the token on the way; text and span still describe one stretch of the stylesheet,
the one between the boundary and the brace. The invariant behind this gives, for a machine, the
text up to its boundary and the stretch behind it.

A span need not be in order. The two columns are counted whether or not there is something in
front of the brace: directly behind a boundary, and behind a single character at the very
beginning, a span ends one column before it begins. Everywhere else it ends where it begins or
further on.
-/

namespace SelectorLint.Stylesheet

open Text

/-- The prelude with an opening brace behind a stretch of text that begins at a boundary. -/
def found (file : String) (before stretch : List Char) : Prelude where
  text := trim (cleared stretch)
  span := ⟨file, Grammar.boundary before, (Position.after (before ++ stretch ++ ['{'])).beforeBrace⟩

/-- A machine that has read a text up to its boundary and a stretch behind it. -/
structure Reads (file : String) (before stretch : List Char) (machine : Machine) : Prop where
  /-- Contexts and token fit together. -/
  coherent : machine.Coherent
  /-- Spans name this stylesheet. -/
  file : machine.file = file
  /-- The position is behind both parts. -/
  position : machine.position = .after (before ++ stretch)
  /-- The boundary is behind the first part. -/
  tokenStart : machine.tokenStart = Grammar.boundary before
  /-- The token is the second part without its comments. -/
  clearing : machine.clearing = Clearing.after stretch

/-- What one more character does to a machine that has read a text up to its boundary and a
    stretch behind it. -/
inductive Follows (file : String) (before stretch : List Char) (machine : Machine) (c : Char) :
    Machine × Option Emission → Prop where
  /-- The stretch is longer. -/
  | goesOn {next : Machine} (reads : Reads file before (stretch ++ [c]) next)
      (inBody : .ruleBody ∈ machine.stack → .ruleBody ∈ next.stack) :
      Follows file before stretch machine c (next, none)
  /-- The boundary is behind the character. -/
  | cuts {next : Machine} {emission : Option Emission}
      (reads : Reads file (before ++ stretch ++ [c]) [] next)
      (silent : emission.bind Emission.prelude? = none) :
      Follows file before stretch machine c (next, emission)
  /-- The character opens a rule, and the boundary is behind it. -/
  | opens {next : Machine} (reads : Reads file (before ++ stretch ++ [c]) [] next)
      (topLevel : machine.stack = []) (brace : c = '{') (inBody : .ruleBody ∈ next.stack) :
      Follows file before stretch machine c (next, some (.opened (found file before stretch)))

namespace Reads

variable {file : String} {before stretch : List Char} {machine : Machine}

/-- A fresh machine has read nothing. -/
theorem fresh (file : String) : Reads file [] [] { file } where
  coherent := Machine.coherent_fresh file
  file := rfl
  position := rfl
  tokenStart := rfl
  clearing := rfl

/-- A machine that has just cut its token has read everything up to its boundary. -/
theorem cut (reads : Reads file before stretch machine) (c : Char) (stack : List Context)
    (coherent : { machine.take c with stack }.cut.Coherent) :
    Reads file (before ++ stretch ++ [c]) [] { machine.take c with stack }.cut where
  coherent := coherent
  file := reads.file
  position := by
    rw [List.append_nil, Position.after_concat, ← reads.position]
    rfl
  tokenStart := by
    have nonempty : before ++ stretch ++ [c] ≠ [] := by simp
    rw [Grammar.boundary, if_neg nonempty, Position.after_concat, ← reads.position]
    rfl
  clearing := coherent.clearing_of_boundary rfl

/-- At the top level the token is the stretch without its comments, and none of them is open. -/
theorem clearing_of_topLevel (reads : Reads file before stretch machine)
    (topLevel : machine.stack = []) : Clearing.after stretch = ⟨machine.token, none⟩ := by
  rw [← reads.clearing]
  apply Machine.clearing_of_unquoted
  rw [topLevel]
  trivial

/-- The prelude that a brace at the top level ends is the one of the stretch. -/
theorem head_take (reads : Reads file before stretch machine) (topLevel : machine.stack = []) :
    (machine.take '{').head = found file before stretch := by
  have kept : cleared stretch = machine.token := by
    rw [cleared, reads.clearing_of_topLevel topLevel]
  rw [found, kept, Position.after_concat, ← reads.position, ← reads.tokenStart, ← reads.file,
    Machine.head, Machine.take, List.dropLast_concat]

/-- One more character is read as part of the stretch, or the boundary moves behind it. -/
theorem follows (reads : Reads file before stretch machine) (c : Char) :
    Follows file before stretch machine c (machine.step c) := by
  have coherent := reads.coherent.step c
  have advance := reads.coherent.advance c
  generalize machine.step c = answer at coherent advance
  cases advance with
  | goesOn sameFile position tokenStart clearing inBody =>
    refine .goesOn ⟨coherent, sameFile.trans reads.file, ?_, tokenStart.trans reads.tokenStart, ?_⟩
      inBody
    · rw [position, reads.position, ← List.append_assoc, Position.after_concat]
    · rw [clearing, reads.clearing, Clearing.after_concat]
  | cuts stack silent =>
    exact .cuts (reads.cut c stack coherent) silent
  | opens topLevel brace =>
    subst brace
    rw [reads.head_take topLevel]
    exact .opens (reads.cut '{' _ coherent) topLevel rfl List.mem_cons_self

end Reads

/-- Behind every text there is a boundary, and a stretch behind it. -/
theorem exists_reads (file : String) (text : List Char) : ∃ before stretch,
    before ++ stretch = text ∧ Reads file before stretch (Machine.run { file } text).1 := by
  induction text using List.reverseRecOn with
  | nil => exact ⟨[], [], rfl, .fresh file⟩
  | append_singleton text c inductionHypothesis =>
    obtain ⟨before, stretch, rfl, reads⟩ := inductionHypothesis
    rw [Machine.run_append, Machine.run_singleton]
    dsimp only
    have follows := reads.follows c
    generalize (Machine.run { file } (before ++ stretch)).1.step c = answer at follows
    cases follows with
    | goesOn reads _ => exact ⟨before, stretch ++ [c], (List.append_assoc _ _ _).symm, reads⟩
    | cuts reads _ => exact ⟨before ++ stretch ++ [c], [], List.append_nil _, reads⟩
    | opens reads _ _ _ => exact ⟨before ++ stretch ++ [c], [], List.append_nil _, reads⟩

/-- Reading the character at an index of a source emits a prelude. -/
def EmittedAt (file : String) (source : List Char) (i : Nat) (head : Prelude) : Prop :=
  (source[i]?.bind fun c => ((Machine.run { file } (source.take i)).1.step c).2) =
    some (.opened head)

instance (file : String) (source : List Char) (i : Nat) (head : Prelude) :
    Decidable (EmittedAt file source i head) :=
  inferInstanceAs (Decidable (_ = _))

/-- What a run emits is what the steps at its indices emit. -/
theorem Machine.mem_run_iff (machine : Machine) (text : List Char) (emission : Emission) :
    emission ∈ (machine.run text).2 ↔
      ∃ i, (text[i]?.bind fun c => ((machine.run (text.take i)).1.step c).2) = some emission := by
  induction text generalizing machine with
  | nil => simp
  | cons c rest inductionHypothesis =>
    rw [run_cons, List.mem_append, Option.mem_toList, inductionHypothesis]
    constructor
    · rintro (first | ⟨i, later⟩)
      · exact ⟨0, first⟩
      · refine ⟨i + 1, ?_⟩
        rw [List.getElem?_cons_succ, List.take_succ_cons, run_cons]
        exact later
    · rintro ⟨i, emitted⟩
      cases i with
      | zero => exact .inl emitted
      | succ i =>
        rw [List.getElem?_cons_succ, List.take_succ_cons, run_cons] at emitted
        exact .inr ⟨i, emitted⟩

/-- The preludes of a stylesheet are those emitted at its indices. -/
theorem mem_preludes_iff_emittedAt (file : String) (source : List Char) (head : Prelude) :
    head ∈ preludes file source ↔ ∃ i, EmittedAt file source i head := by
  rw [mem_preludes_iff, Machine.mem_run_iff]
  rfl

/-- A prelude is emitted at an opening brace, and it is the one of the stretch in front of the
    brace. -/
theorem EmittedAt.exists_found {file : String} {source : List Char} {i : Nat} {head : Prelude}
    (emitted : EmittedAt file source i head) :
    source[i]? = some '{' ∧ ∃ before stretch, before ++ stretch = source.take i ∧
      head = found file before stretch ∧
      (Machine.run { file } (source.take i)).1.stack = [] ∧
      Reads file before stretch (Machine.run { file } (source.take i)).1 := by
  obtain ⟨c, at_i, opened⟩ := Option.bind_eq_some_iff.mp emitted
  obtain ⟨before, stretch, whole, reads⟩ := exists_reads file (source.take i)
  have follows := reads.follows c
  generalize answered : (Machine.run { file } (source.take i)).1.step c = answer at follows opened
  cases follows with
  | goesOn _ _ => cases opened
  | cuts _ silent =>
    dsimp only at opened
    rw [opened] at silent
    cases silent
  | opens _ topLevel brace _ =>
    obtain rfl : found file before stretch = head := by simpa using opened
    exact ⟨brace ▸ at_i, before, stretch, whole, rfl, topLevel, reads⟩

/-- A prelude that is reported for the stretch of a source between a boundary and the opening
    brace at an index. The boundary is the number of characters up to and with the one that
    ended the token before, and 0 where there was none. -/
structure Covers (file : String) (source : List Char) (boundary i : Nat) (head : Prelude) :
    Prop where
  /-- The character at the index is an opening brace. -/
  brace : source[i]? = some '{'
  /-- The boundary is in front of the brace. -/
  inFront : boundary ≤ i
  /-- No comment is left open in the stretch. -/
  closed : (Clearing.after ((source.take i).drop boundary)).inside = none
  /-- The text is the stretch without comments, trimmed. -/
  text : head.text = trim (cleared ((source.take i).drop boundary))
  /-- The span names the stylesheet. -/
  file : head.span.file = file
  /-- The span begins at the last character up to the boundary. -/
  first : head.span.first =
    if boundary = 0 then ⟨1, 1⟩ else Position.counted (source.take boundary)
  /-- The span ends two columns before the brace, and at column 0 where there are not that
      many. -/
  last : head.span.last = ⟨(Position.counted (source.take (i + 1))).line,
    (Position.counted (source.take (i + 1))).column - 2⟩

/-- The prelude found behind a stretch at the top level is reported for that stretch. -/
theorem Reads.covers {file : String} {source before stretch : List Char} {i : Nat}
    {machine : Machine} (reads : Reads file before stretch machine)
    (topLevel : machine.stack = []) (brace : source[i]? = some '{')
    (whole : before ++ stretch = source.take i) :
    Covers file source before.length i (found file before stretch) := by
  have inFront : before.length ≤ i := by
    have length := congrArg List.length whole
    rw [List.length_append, List.length_take] at length
    omega
  have front : source.take before.length = before := by
    have taken : (source.take i).take before.length = before := by
      rw [← whole, List.take_left]
    rwa [List.take_take, Nat.min_eq_left inFront] at taken
  have behind : (source.take i).drop before.length = stretch := by
    rw [← whole, List.drop_left]
  have throughBrace : source.take (i + 1) = before ++ stretch ++ ['{'] := by
    rw [List.take_add_one, brace, whole]
    rfl
  refine ⟨brace, inFront, ?_, ?_, rfl, ?_, ?_⟩
  · rw [behind, reads.clearing_of_topLevel topLevel]
  · rw [behind]
    rfl
  · rw [front, ← Position.after_eq_counted, found, Grammar.boundary]
    simp only [List.length_eq_zero_iff]
  · rw [throughBrace, ← Position.after_eq_counted]
    rfl

/-- Spans are faithful. Every prelude is emitted at an opening brace and reported for the
    stretch between a boundary and that brace: its text is the stretch without comments,
    trimmed; its span begins at the boundary and ends two columns before the brace, both counted
    on the source. -/
theorem exists_covers_of_emittedAt (file : String) (source : List Char) (i : Nat)
    (head : Prelude) (emitted : EmittedAt file source i head) :
    ∃ boundary, Covers file source boundary i head := by
  obtain ⟨brace, before, stretch, whole, rfl, topLevel, reads⟩ := emitted.exists_found
  exact ⟨before.length, reads.covers topLevel brace whole⟩

/-- The second rule of a stylesheet. Its head has a comment whose opener is completed across
    another one, a line feed and a brace in that comment, and a string that holds a comment
    opener and a brace. -/
theorem exists_covers_of_emittedAt_joined :
    EmittedAt "a.css" "é\x7ba\x7d\n.b//**/*\n\x7b*/ '/*\x7b' \x7b".toList 24
        ⟨".b '/*\x7b'".toList, "a.css", ⟨2, 1⟩, ⟨3, 10⟩⟩ ∧
      ∃ boundary, Covers "a.css" "é\x7ba\x7d\n.b//**/*\n\x7b*/ '/*\x7b' \x7b".toList boundary 24
        ⟨".b '/*\x7b'".toList, "a.css", ⟨2, 1⟩, ⟨3, 10⟩⟩ := by
  have emitted : EmittedAt "a.css" "é\x7ba\x7d\n.b//**/*\n\x7b*/ '/*\x7b' \x7b".toList 24
      ⟨".b '/*\x7b'".toList, "a.css", ⟨2, 1⟩, ⟨3, 10⟩⟩ := by
    decide +kernel
  exact ⟨emitted, exists_covers_of_emittedAt _ _ _ _ emitted⟩

/-- A first character other than a line feed is where a span without boundary begins. -/
theorem Position.after_singleton {c : Char} (other : c ≠ '\n') : after [c] = ⟨1, 1⟩ := by
  rw [after, List.foldl_cons, List.foldl_nil, advance, if_neg other]
  rfl

/-- A boundary lies before the last character in front of the brace unless there is nothing
    between them, or all of the text is one character. -/
theorem boundary_lt_after_iff (before stretch : List Char)
    (begun : before = [] → stretch ≠ ['\n']) :
    Grammar.boundary before < Position.after (before ++ stretch) ↔
      stretch ≠ [] ∧ (before ++ stretch).length ≠ 1 := by
  by_cases fresh : before = []
  · subst fresh
    match stretch, begun rfl with
    | [], _ => decide
    | [c], noLineFeed =>
      have other : c ≠ '\n' := fun same => noLineFeed (same ▸ rfl)
      rw [List.nil_append, Position.after_singleton other]
      simp [Grammar.boundary]
    | c :: d :: rest, _ =>
      have atFirst : ⟨1, 1⟩ ≤ Position.after [c] := Position.first_le_after (List.cons_ne_nil c [])
      have further : Position.after [c] < Position.after ([c] ++ (d :: rest)) :=
        Position.after_lt_after_append [c] (List.cons_ne_nil d rest)
      have before : (⟨1, 1⟩ : Position) < Position.after (c :: d :: rest) :=
        lt_of_le_of_lt atFirst further
      simpa [Grammar.boundary] using before
  · rw [Grammar.boundary, if_neg fresh]
    by_cases nothing : stretch = []
    · simp [nothing]
    · have longer : (before ++ stretch).length ≠ 1 := by
        have positive := List.length_pos_iff.mpr fresh
        have further := List.length_pos_iff.mpr nothing
        rw [List.length_append]
        omega
      simp only [nothing, longer, ne_eq, not_false_eq_true, and_self, iff_true]
      exact Position.after_lt_after_append before nothing

section Found

-- A blank is a boundary, so a line feed is never all of the text in front of a brace.
variable (file : String) (before stretch : List Char) (begun : before = [] → stretch ≠ ['\n'])

include begun

/-- The span of a prelude is in order exactly when something stands between its boundary and
    its brace, and more than one character where there is no boundary. -/
theorem span_found_le_iff :
    (found file before stretch).span.first ≤ (found file before stretch).span.last ↔
      stretch ≠ [] ∧ (before ++ stretch).length ≠ 1 := by
  have positive : 0 < (Grammar.boundary before).column := by
    rw [Grammar.boundary]
    split
    · exact Nat.one_pos
    · rename_i nonempty
      exact Position.column_after_pos nonempty
  rw [← boundary_lt_after_iff before stretch begun, ← Position.le_beforeBrace_iff positive,
    ← Position.after_concat]
  rfl

/-- A span out of order ends one column before it begins. -/
theorem span_found_of_not_le
    (reversed : ¬(found file before stretch).span.first ≤ (found file before stretch).span.last) :
    (found file before stretch).span.first =
      ⟨(found file before stretch).span.last.line,
        (found file before stretch).span.last.column + 1⟩ := by
  rw [span_found_le_iff file before stretch begun, not_and_or, not_not, not_not] at reversed
  rw [found, Position.after_concat]
  by_cases fresh : before = []
  · subst fresh
    match stretch, begun rfl, reversed with
    | [], _, _ => rfl
    | [c], noLineFeed, _ =>
      have other : c ≠ '\n' := fun same => noLineFeed (same ▸ rfl)
      rw [List.nil_append, Position.after_singleton other]
      rfl
    | c :: d :: rest, _, reversed => exact absurd reversed (by simp)
  · have nothing : stretch = [] := by
      rcases reversed with nothing | single
      · exact nothing
      · have positive := List.length_pos_iff.mpr fresh
        rw [List.length_append] at single
        exact List.length_eq_zero_iff.mp (by omega)
    rw [nothing, List.append_nil, Grammar.boundary, if_neg fresh]
    exact Position.eq_beforeBrace (Position.column_after_pos fresh)

end Found

/-- The text of a prelude is not longer than its stretch. -/
theorem length_text_found_le (file : String) (before stretch : List Char) :
    (found file before stretch).text.length ≤ stretch.length :=
  calc (trim (cleared stretch)).length
    _ ≤ (cleared stretch).length := (trim_isInfix _).length_le
    _ ≤ stretch.length := length_cleared_le stretch

/-- A line feed is never all of the text in front of a brace: it would be a boundary. -/
theorem Reads.ne_lineFeed {file : String} {stretch : List Char} {machine : Machine}
    (reads : Reads file [] stretch machine) (topLevel : machine.stack = []) :
    stretch ≠ ['\n'] := by
  rintro rfl
  have clearing := reads.clearing_of_topLevel topLevel
  have token : ['\n'] = machine.token := congrArg Clearing.kept clearing
  have unquoted : Context.Unquoted machine.stack := by
    rw [topLevel]
    trivial
  obtain ⟨rule, outer, stop, between, fits, closed, stack⟩ := reads.coherent.of_unquoted unquoted
  have first := (fits.first '\n' (by rw [← token]; rfl)).1
  exact absurd first (by decide)

/-- The span of a prelude is in order exactly when there is at least one character between its
    boundary and its opening brace and the brace is not the second character of the source. A
    span that is not in order ends one column before it begins. So a text of two characters or
    more has its span in order. -/
theorem span_ordered_iff_of_mem_preludes (file : String) (source : List Char) (head : Prelude)
    (member : head ∈ preludes file source) :
    ∃ i boundary, EmittedAt file source i head ∧ Covers file source boundary i head ∧
      (head.span.first ≤ head.span.last ↔ boundary < i ∧ i ≠ 1) ∧
      (¬head.span.first ≤ head.span.last →
        head.span.first = ⟨head.span.last.line, head.span.last.column + 1⟩) ∧
      (2 ≤ head.text.length → head.span.first ≤ head.span.last) := by
  obtain ⟨i, emitted⟩ := (mem_preludes_iff_emittedAt file source head).mp member
  obtain ⟨brace, before, stretch, whole, rfl, topLevel, reads⟩ := emitted.exists_found
  have begun : before = [] → stretch ≠ ['\n'] := by
    rintro rfl
    exact reads.ne_lineFeed topLevel
  have length : (before ++ stretch).length = i := by
    have inside : i < source.length := (List.getElem?_eq_some_iff.mp brace).1
    rw [whole, List.length_take]
    omega
  have ordered := span_found_le_iff file before stretch begun
  have something : stretch ≠ [] ↔ before.length < i := by
    rw [← List.length_pos_iff, ← length, List.length_append]
    omega
  rw [something, length] at ordered
  refine ⟨i, before.length, emitted, reads.covers topLevel brace whole, ordered,
    span_found_of_not_le file before stretch begun, ?_⟩
  intro long
  have written := length_text_found_le file before stretch
  rw [List.length_append] at length
  rw [ordered]
  omega

/-- A head of two letters behind a line feed has its span in order, and an empty head directly
    behind a boundary has not. -/
theorem span_ordered_iff_of_mem_preludes_both :
    ⟨"em".toList, "a.css", ⟨2, 1⟩, ⟨2, 2⟩⟩ ∈ preludes "a.css" "\nem\x7ba\x7d\x7bb\x7d".toList ∧
      ⟨[], "a.css", ⟨2, 6⟩, ⟨2, 5⟩⟩ ∈ preludes "a.css" "\nem\x7ba\x7d\x7bb\x7d".toList ∧
      (∃ i boundary, EmittedAt "a.css" "\nem\x7ba\x7d\x7bb\x7d".toList i
          ⟨"em".toList, "a.css", ⟨2, 1⟩, ⟨2, 2⟩⟩ ∧ boundary < i ∧ i ≠ 1) ∧
      ∃ i boundary, EmittedAt "a.css" "\nem\x7ba\x7d\x7bb\x7d".toList i
          ⟨[], "a.css", ⟨2, 6⟩, ⟨2, 5⟩⟩ ∧ ¬(boundary < i ∧ i ≠ 1) := by
  have letters : (⟨"em".toList, "a.css", ⟨2, 1⟩, ⟨2, 2⟩⟩ : Prelude) ∈
      preludes "a.css" "\nem\x7ba\x7d\x7bb\x7d".toList := by
    decide +kernel
  have empty : (⟨[], "a.css", ⟨2, 6⟩, ⟨2, 5⟩⟩ : Prelude) ∈
      preludes "a.css" "\nem\x7ba\x7d\x7bb\x7d".toList := by
    decide +kernel
  obtain ⟨i, boundary, emitted, _, ordered, _⟩ :=
    span_ordered_iff_of_mem_preludes _ _ _ letters
  obtain ⟨j, other, emittedLater, _, reversed, _⟩ :=
    span_ordered_iff_of_mem_preludes _ _ _ empty
  refine ⟨letters, empty, ⟨i, boundary, emitted, ordered.mp (by decide)⟩,
    j, other, emittedLater, ?_⟩
  rw [← reversed]
  decide

/-- Not every span is in order: a head of one letter at the very beginning ends at column 0. -/
theorem preludes_span_out_of_order :
    ¬∀ (file : String) (source : List Char), ∀ head ∈ preludes file source,
      head.span.first ≤ head.span.last := by
  intro ordered
  have member : (⟨"a".toList, "a.css", ⟨1, 1⟩, ⟨1, 0⟩⟩ : Prelude) ∈
      preludes "a.css" "a\x7btop:0\x7d".toList := by
    decide +kernel
  exact absurd (ordered "a.css" _ _ member) (by decide)

end SelectorLint.Stylesheet
