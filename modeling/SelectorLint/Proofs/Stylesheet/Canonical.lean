import SelectorLint.Proofs.Stylesheet.Coherence
import SelectorLint.Proofs.Text.Trim

/-!
# Texts of preludes are canonical

The text of a prelude was collected from a boundary on, with comments cut out and with blanks
trimmed. Cutting a comment out brings characters together that were apart; no comment opens
and no keyword begins where they meet, because the machine looks at the token and not at the
stylesheet. So the text holds no comment, no opening brace outside strings, and begins with
no blank, closing brace or keyword. Read again, with an opening brace behind it, it is the
head of one rule, and the prelude has the same text.
-/

namespace SelectorLint.Stylesheet

open Text

/-- A text that can be the head of a rule, without blanks at its ends. -/
structure Canonical (text : List Char) : Prop where
  /-- It begins with no blank, closing brace or keyword. -/
  begins : Grammar.Begins text
  /-- It leaves no string open, no comment opens in it, and it has no opening brace outside
      strings. -/
  free : Grammar.Free '{' text
  /-- There is nothing to trim. -/
  trimmed : trim text = text

/-- Blanks at the end of a text are not part of its strings. -/
theorem Closed.trimEnd {text : List Char} (closed : Closed text) : Closed (trimEnd text) := by
  have split : Text.trimEnd text ++ text.rtakeWhile isBlank = text :=
    List.rdropWhile_append_rtakeWhile
  rw [← split, closed_append_iff] at closed
  · exact closed
  · intro c member
    have blank : isBlank c = true := List.mem_rtakeWhile_imp member
    by_contra quote
    have notBlank := (noBoundary_of_isQuote (by simpa using quote)).1
    rw [blank] at notBlank
    cases notBlank

/-- A token at the top level is canonical once it is trimmed. -/
theorem Fits.canonical_trim {token : List Char} (fits : Fits none '{' token)
    (closed : Closed token) : Canonical (trim token) := by
  have front : trim token = trimEnd token := by
    rw [trim, trimStart_eq_self fun c first => (fits.first c first).1]
  have part : trimEnd token <+: token := trimEnd_isPrefix token
  refine ⟨⟨?_, ?_⟩, ⟨?_, ?_, ?_⟩, trim_trim token⟩
  · intro c first
    rw [front] at first
    exact fits.first c (head?_of_isPrefix part first)
  · rw [front, ← AtRule.ofToken?_eq_none_iff]
    exact AtRule.ofToken?_of_isPrefix part fits.begun
  · rw [front]
    exact closed.trimEnd
  · rw [front]
    exact fits.uncommented.of_isPrefix part
  · rw [front]
    intro member
    exact fits.unended rfl ((outside_isPrefix _ _ part).mem member)

namespace Machine

/-- A character that is read by what it means in the innermost context emits a prelude at the
    top level only. -/
theorem head_of_readPlain {machine : Machine} {c : Char} {head : Prelude}
    (opened : (machine.readPlain c).2 = some (.opened head)) :
    machine.stack = [] ∧ head = machine.head := by
  rw [readPlain] at opened
  split at opened
  · split at opened <;> cases opened
  · split at opened
    · cases opened
    · split at opened <;> cases opened
  · rename_i topLevel
    split at opened
    · cases opened
    · split at opened
      · exact ⟨topLevel, by simpa using opened.symm⟩
      · cases opened
  · cases opened

/-- A prelude is emitted at the top level only, and its text is the trimmed token in front of
    the last character. -/
theorem head_of_step {machine : Machine} {c : Char} {head : Prelude}
    (opened : (machine.step c).2 = some (.opened head)) :
    machine.stack = [] ∧ head.text = trim machine.token := by
  rcases Context.unquoted_or machine.stack with
    unquoted | ⟨quote, outer, inString⟩ | ⟨start, outer, inComment⟩
  · cases role machine.token c with
    | quote isQuote =>
      rw [step_opening_quote machine unquoted c isQuote] at opened
      cases opened
    | star front slash isStar =>
      subst isStar
      rw [step_opening_star machine unquoted front slash] at opened
      cases opened
    | boundary fresh isBoundary =>
      rw [step_boundary machine unquoted c fresh isBoundary] at opened
      cases opened
    | plain noQuote apart noBoundary =>
      rw [step_readPlain machine unquoted c noQuote apart noBoundary] at opened
      obtain ⟨topLevel, same⟩ := head_of_readPlain opened
      refine ⟨topLevel, ?_⟩
      rw [same, Machine.head, take, List.dropLast_concat]
  · rw [step_quoted machine quote c outer inString] at opened
    cases opened
  · rw [step_commented machine start c outer inComment] at opened
    cases opened

/-- The text of every prelude that a coherent machine emits is canonical. -/
theorem Coherent.canonical_of_step {machine : Machine} (coherent : machine.Coherent) {c : Char}
    {head : Prelude} (opened : (machine.step c).2 = some (.opened head)) :
    Canonical head.text := by
  obtain ⟨topLevel, text⟩ := head_of_step opened
  have unquoted : Context.Unquoted machine.stack := by
    rw [topLevel]
    trivial
  obtain ⟨rule, outer, stop, between, fits, closed, stack⟩ := coherent.of_unquoted unquoted
  rw [topLevel, Context.within] at stack
  obtain ⟨noRule, rfl⟩ := List.append_eq_nil_iff.mp stack.symm
  obtain rfl : rule = none := by simpa using noRule
  cases between
  rw [text]
  exact fits.canonical_trim closed

/-- The text of every prelude that a coherent machine emits is canonical. -/
theorem Coherent.canonical_of_run {machine : Machine} (coherent : machine.Coherent)
    (text : List Char) {head : Prelude} (opened : .opened head ∈ (machine.run text).2) :
    Canonical head.text := by
  induction text generalizing machine with
  | nil => cases opened
  | cons c rest inductionHypothesis =>
    rw [run_cons, List.mem_append, Option.mem_toList] at opened
    rcases opened with first | later
    · exact coherent.canonical_of_step first
    · exact inductionHypothesis (coherent.step c) later

/-- A canonical text is taken at the top level and emits nothing; an opening brace behind it
    ends the prelude with that text. -/
theorem run_canonical (machine : Machine) {text : List Char} (canonical : Canonical text)
    (topLevel : machine.stack = []) (fresh : machine.token = []) :
    machine.run text = (machine.taken text [], []) ∧
      machine.run (text ++ ['{']) =
        (((machine.taken (text ++ ['{']) []).enter .ruleBody).cut,
          [.opened ⟨text, machine.file, machine.tokenStart,
            ((text ++ ['{']).foldl Position.advance machine.position).beforeBrace⟩]) := by
  have stretch : Stretch machine (fun _ => []) text :=
    stretch_between machine .topLevel fresh canonical.begins canonical.free
  have head : (machine.taken (text ++ ['{']) []).head = ⟨text, machine.file, machine.tokenStart,
      ((text ++ ['{']).foldl Position.advance machine.position).beforeBrace⟩ := by
    rw [Machine.head, taken_token, fresh, List.nil_append, List.dropLast_concat, canonical.trimmed]
    rfl
  constructor
  · rw [stretch.run topLevel, canonical.free.closed.contexts]
    rfl
  · rw [run_head machine text canonical.begins canonical.free topLevel fresh, head]

end Machine

/-- A prelude of a stylesheet was emitted by the machine. -/
theorem mem_preludes_iff (file : String) (source : List Char) (head : Prelude) :
    head ∈ preludes file source ↔ .opened head ∈ (Machine.run { file } source).2 := by
  rw [preludes, emissions, List.mem_filterMap]
  constructor
  · rintro ⟨emission, member, carries⟩
    cases emission with
    | opened other =>
      obtain rfl : other = head := Option.some.inj carries
      exact member
    | skipped rule token => cases carries
  · intro member
    exact ⟨.opened head, member, rfl⟩

/-- Reading the text of a prelude again gives the prelude again. The text of every prelude of
    every stylesheet is canonical. A fresh machine emits nothing on it; with one opening brace
    behind it there is one emission, a prelude with that text, and the machine is in the body
    of a rule with an empty token. -/
theorem prelude_rescanned (file other : String) (source : List Char) (head : Prelude)
    (found : head ∈ preludes file source) :
    Canonical head.text ∧
      (Machine.run { file := other } head.text).2 = [] ∧
      (Machine.run { file := other } (head.text ++ ['{'])).2 =
        [.opened ⟨head.text, other, ⟨1, 1⟩, (Position.after (head.text ++ ['{'])).beforeBrace⟩] ∧
      (Machine.run { file := other } (head.text ++ ['{'])).1.stack = [.ruleBody] ∧
      (Machine.run { file := other } (head.text ++ ['{'])).1.token = [] := by
  have canonical : Canonical head.text :=
    (Machine.coherent_fresh file).canonical_of_run source
      ((mem_preludes_iff file source head).mp found)
  obtain ⟨silent, opened⟩ := Machine.run_canonical { file := other } canonical rfl rfl
  rw [silent, opened]
  exact ⟨canonical, rfl, rfl, rfl, rfl⟩

/-- A head with comments between the letters of a word, behind a slash and among the blanks
    at its end, and with a string that holds an opening brace and a comment opener. -/
theorem prelude_rescanned_joined :
    ⟨"@medx/y \x22\x7b/*\x22".toList, "a.css", ⟨1, 2⟩, ⟨1, 29⟩⟩ ∈
        preludes "a.css" "\x7d @med/*c*/x//**/y \x22\x7b/*\x22 /**/ \x7b".toList ∧
      (Machine.run { file := "b.css" } ("@medx/y \x22\x7b/*\x22".toList ++ ['{'])).2 =
        [.opened ⟨"@medx/y \x22\x7b/*\x22".toList, "b.css", ⟨1, 1⟩, ⟨1, 12⟩⟩] := by
  have found : (⟨"@medx/y \x22\x7b/*\x22".toList, "a.css", ⟨1, 2⟩, ⟨1, 29⟩⟩ : Prelude) ∈
      preludes "a.css" "\x7d @med/*c*/x//**/y \x22\x7b/*\x22 /**/ \x7b".toList := by
    decide +kernel
  exact ⟨found, (prelude_rescanned "a.css" "b.css" _ _ found).2.2.1⟩

end SelectorLint.Stylesheet
