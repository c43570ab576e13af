import SelectorLint.Proofs.Stylesheet.Comments

/-!
# Texts cleared of comments

Clearing a text of comments reads it from the left and keeps what belongs to no comment. A
comment opens with a star behind a slash, both outside strings. The two are looked for in what
was kept so far, not in the text: a slash in front of a comment and a star behind it open a
further comment. Strings stay, with whatever looks like a comment in them. This reading knows
strings and comments and nothing else; it has no contexts and no offsets.

A machine clears the stretch of text between its boundary and its last character. What a step
does with the token is therefore said once here, in terms of the clearing, next to what it does
with the boundary and with the body of a rule.
-/

namespace SelectorLint.Stylesheet

open Text

/-- What has been kept of a text, and what stands behind the opener of the comment that is
    open, if one is. -/
structure Clearing where
  /-- The text without comments. -/
  kept : List Char := []
  /-- The text of the open comment behind its opener. -/
  inside : Option (List Char) := none
  deriving DecidableEq, Repr

namespace Clearing

/-- Reads one character. The closer of a comment stands behind its opener. -/
def next (clearing : Clearing) (c : Char) : Clearing :=
  match clearing.inside with
  | some inside =>
    if ['*', '/'] <:+ inside ++ [c] then { kept := clearing.kept }
    else { clearing with inside := some (inside ++ [c]) }
  | none =>
    if Closed clearing.kept ∧ ['/', '*'] <:+ clearing.kept ++ [c] then
      { kept := clearing.kept.dropLast, inside := some [] }
    else { kept := clearing.kept ++ [c] }

/-- What has been kept behind a text. -/
def after (text : List Char) : Clearing := text.foldl next {}

/-- One more character is taken in behind what has been kept. -/
theorem after_concat (text : List Char) (c : Char) :
    after (text ++ [c]) = (after text).next c := by
  simp only [after, List.foldl_append, List.foldl_cons, List.foldl_nil]

/-- A character that does not complete the opener of a comment is kept. -/
theorem next_kept {kept : List Char} {c : Char}
    (apart : Closed kept → c = '*' → kept.getLast? ≠ some '/') :
    next ⟨kept, none⟩ c = ⟨kept ++ [c], none⟩ := by
  have noOpener : ¬(Closed kept ∧ ['/', '*'] <:+ kept ++ [c]) := by
    rintro ⟨closed, opener⟩
    obtain ⟨star, slash⟩ := (pair_suffix_concat_iff '/' '*' c kept).mp opener
    exact apart closed star.symm slash
  simp only [next, if_neg noOpener]

/-- A star behind a slash, both outside strings, opens a comment. The slash is not kept. -/
theorem next_opener {front : List Char} (closed : Closed front) :
    next ⟨front ++ ['/'], none⟩ '*' = ⟨front, some []⟩ := by
  have stillClosed : Closed (front ++ ['/']) := (closed_concat_iff front '/' (by decide)).mpr closed
  have opener : ['/', '*'] <:+ front ++ ['/'] ++ ['*'] :=
    (pair_suffix_concat_iff _ _ _ _).mpr ⟨rfl, List.getLast?_concat⟩
  simp only [next, if_pos (And.intro stillClosed opener), List.dropLast_concat]

/-- Text of a comment that does not close it is passed over. -/
theorem foldl_inside (kept inside more : List Char) (unended : ¬['*', '/'] <:+: inside ++ more) :
    more.foldl next ⟨kept, some inside⟩ = ⟨kept, some (inside ++ more)⟩ := by
  induction more using List.reverseRecOn with
  | nil => rw [List.foldl_nil, List.append_nil]
  | append_singleton more c inductionHypothesis =>
    rw [← List.append_assoc, List.infix_concat_iff, not_or] at unended
    rw [List.foldl_append, inductionHypothesis unended.2, List.foldl_cons, List.foldl_nil,
      ← List.append_assoc]
    exact if_neg unended.1

/-- A comment outside strings and comments is cleared, whatever stands in front of it. -/
theorem foldl_comment {kept : List Char} (closed : Closed kept) {content : List Char}
    (unclosing : Unclosing content) :
    (comment content).foldl next ⟨kept, none⟩ = ⟨kept, none⟩ := by
  have parts : comment content = '/' :: '*' :: ((content ++ ['*']) ++ ['/']) := by
    rw [comment, List.append_assoc]
    rfl
  have slash : next ⟨kept, none⟩ '/' = ⟨kept ++ ['/'], none⟩ :=
    next_kept fun _ star => absurd star (by decide)
  have closer : ['*', '/'] <:+ content ++ ['*'] ++ ['/'] :=
    (pair_suffix_concat_iff _ _ _ _).mpr ⟨rfl, List.getLast?_concat⟩
  rw [parts, List.foldl_cons, List.foldl_cons, slash, next_opener closed, List.foldl_append,
    foldl_inside kept [] (content ++ ['*']) unclosing.not_infix, List.foldl_cons, List.foldl_nil,
    next]
  simp only [List.nil_append, if_pos closer]

end Clearing

/-- A text without its comments. -/
def cleared (text : List Char) : List Char := (Clearing.after text).kept

/-- Clearing adds nothing. -/
theorem length_cleared_le (text : List Char) : (cleared text).length ≤ text.length := by
  induction text using List.reverseRecOn with
  | nil => exact Nat.le_refl 0
  | append_singleton text c inductionHypothesis =>
    have longer : ((Clearing.after text).next c).kept.length ≤ (cleared text).length + 1 := by
      rw [Clearing.next, cleared]
      split
      · split <;> exact Nat.le_succ _
      · split
        · rw [List.length_dropLast]
          omega
        · rw [List.length_append, List.length_singleton]
    rw [cleared, Clearing.after_concat, List.length_append, List.length_singleton]
    omega

/-- A text in which no comment opens is kept as it is. -/
theorem Uncommented.clearing {text : List Char} (uncommented : Uncommented text) :
    Clearing.after text = ⟨text, none⟩ := by
  induction text using List.reverseRecOn with
  | nil => rfl
  | append_singleton text c inductionHypothesis =>
    rw [Clearing.after_concat,
      inductionHypothesis (uncommented.of_isPrefix (List.prefix_append text [c]))]
    apply Clearing.next_kept
    rintro closed rfl
    exact uncommented.not_slash_star (List.prefix_refl _) closed

/-- A comment behind text in which none opens is cleared, and the rest is read as if it stood
    directly behind that text. -/
theorem cleared_comment {front content : List Char} (uncommented : Uncommented front)
    (closed : Closed front) (unclosing : Unclosing content) (rest : List Char) :
    cleared (front ++ comment content ++ rest) = cleared (front ++ rest) := by
  have passed : Clearing.after (front ++ comment content) = Clearing.after front := by
    rw [Clearing.after, List.foldl_append, ← Clearing.after, uncommented.clearing,
      Clearing.foldl_comment closed unclosing]
  rw [cleared, cleared, Clearing.after, List.foldl_append, ← Clearing.after, passed,
    Clearing.after, ← List.foldl_append]
  rfl

/-- The slash in front of the first comment and the star behind it open the second. -/
example : cleared "a//*b*/*c*/'/*d*/'".toList = "a'/*d*/'".toList := by decide

namespace Machine

/-- What a machine has kept since its boundary, and the comment that is open in its token. -/
def clearing (machine : Machine) : Clearing where
  kept := machine.kept
  inside :=
    match machine.stack with
    | .comment start :: _ => (machine.comment? start).map (·.2)
    | _ => none

/-- Where no comment is open the whole token is kept. -/
theorem clearing_of_uncommented (machine : Machine)
    (uncommented : ∀ start outer, machine.stack ≠ .comment start :: outer) :
    machine.clearing = ⟨machine.token, none⟩ := by
  rw [clearing, machine.kept_of_uncommented uncommented]
  split
  · rename_i start outer stack
    exact absurd stack (uncommented start outer)
  · rfl

/-- Outside strings and comments the whole token is kept. -/
theorem clearing_of_unquoted {machine : Machine} (unquoted : Context.Unquoted machine.stack) :
    machine.clearing = ⟨machine.token, none⟩ := by
  apply clearing_of_uncommented
  intro start outer stack
  rw [stack] at unquoted
  exact unquoted.elim

/-- An open comment is the end of the token. -/
theorem clearing_of_comment (machine : Machine) (front inside : List Char) (outer : List Context)
    (stack : machine.stack = .comment (byteLength front) :: outer)
    (token : machine.token = front ++ '/' :: '*' :: inside) :
    machine.clearing = ⟨front, some inside⟩ := by
  simp only [clearing, machine.kept_of_comment front inside outer stack token, stack,
    machine.comment?_of_token front inside token, Option.map_some]

/-- At a boundary nothing has been kept and no comment is open. -/
theorem Coherent.clearing_of_boundary {machine : Machine} (coherent : machine.Coherent)
    (boundary : machine.token = []) : machine.clearing = {} := by
  cases coherent with
  | uncommented rule outer stop between fits stack =>
    rw [boundary] at stack
    have around : machine.stack = Context.within rule outer := stack
    rw [clearing_of_unquoted (around ▸ between.unquoted_within rule), boundary]
  | commented rule outer stop front inside between fits closed unended token stack =>
    rw [boundary] at token
    exact absurd token (by simp)

/-- A character that is read by what it means in the innermost context leaves the token open,
    ends a token that is passed over, or opens a rule at the top level. A token that goes on
    leaves no body. -/
theorem readPlain_cases (machine : Machine) (c : Char)
    (unquoted : Context.Unquoted machine.stack) :
    (∃ stack, machine.readPlain c = ({ machine with stack }, none) ∧ Context.Unquoted stack ∧
      (.ruleBody ∈ machine.stack → .ruleBody ∈ stack)) ∨
    (∃ stack emission, machine.readPlain c = ({ machine with stack }.cut, emission) ∧
      emission.bind Emission.prelude? = none) ∨
    (machine.readPlain c = ((machine.enter .ruleBody).cut, some (.opened machine.head)) ∧
      machine.stack = [] ∧ c = '{') := by
  have enters (rule : AtRule) (stack : List Context) (same : machine.stack = stack) :
      machine.enter (.atRule rule) = { machine with stack := .atRule rule :: stack } := by
    rw [enter, same]
  have stays (stack : List Context) (same : machine.stack = stack) :
      machine = { machine with stack } := by
    rw [← same]
  cases shape : machine.stack with
  | nil =>
    cases begun : AtRule.ofToken? machine.token with
    | some rule =>
      refine .inl ⟨[.atRule rule], ?_, trivial, by simp⟩
      simp only [readPlain, shape, begun, enters rule [] shape]
    | none =>
      by_cases brace : c = '{'
      · refine .inr (.inr ⟨?_, rfl, brace⟩)
        simp only [readPlain, shape, begun, if_pos brace]
      · refine .inl ⟨[], ?_, trivial, by simp⟩
        simp only [readPlain, shape, begun, if_neg brace]
        rw [← stays [] shape]
  | cons context outer =>
    rw [shape] at unquoted
    cases context with
    | quoted quote => exact unquoted.elim
    | comment start => exact unquoted.elim
    | atRule rule =>
      cases advanced : rule.advance? c with
      | some next =>
        refine .inl ⟨.atRule next :: outer, ?_, trivial, by simp⟩
        simp only [readPlain, shape, advanced]
      | none =>
        refine .inr (.inl ⟨outer, some (.skipped rule machine.token), ?_, rfl⟩)
        simp only [readPlain, shape, advanced]
    | ruleBody =>
      cases begun : AtRule.ofToken? machine.token with
      | some rule =>
        refine .inl ⟨.atRule rule :: .ruleBody :: outer, ?_, trivial, by simp⟩
        simp only [readPlain, shape, begun, enters rule _ shape]
      | none =>
        by_cases brace : c = '}'
        · refine .inr (.inl ⟨outer, none, ?_, rfl⟩)
          simp only [readPlain, shape, begun, if_pos brace]
        · refine .inl ⟨.ruleBody :: outer, ?_, trivial, by simp⟩
          simp only [readPlain, shape, begun, if_neg brace]
          rw [← stays _ shape]

/-- What a step can do with the boundary, with what was kept behind it and with the body of a
    rule. -/
inductive Advance (machine : Machine) (c : Char) : Machine × Option Emission → Prop where
  /-- The token goes on, and what is kept of it is what clearing keeps. -/
  | goesOn {next : Machine} (file : next.file = machine.file)
      (position : next.position = machine.position.advance c)
      (tokenStart : next.tokenStart = machine.tokenStart)
      (clearing : next.clearing = machine.clearing.next c)
      (inBody : .ruleBody ∈ machine.stack → .ruleBody ∈ next.stack) :
      Advance machine c (next, none)
  /-- The token ends and is passed over. -/
  | cuts (stack : List Context) {emission : Option Emission}
      (silent : emission.bind Emission.prelude? = none) :
      Advance machine c ({ machine.take c with stack }.cut, emission)
  /-- At the top level an opening brace ends the head of a rule. -/
  | opens (topLevel : machine.stack = []) (brace : c = '{') :
      Advance machine c
        (((machine.take c).enter .ruleBody).cut, some (.opened (machine.take c).head))

/-- Outside strings and comments a step does what the role of the character is. -/
theorem advance_unquoted {machine : Machine} (unquoted : Context.Unquoted machine.stack)
    (closed : Closed machine.token) (c : Char) : Advance machine c (machine.step c) := by
  have keeps (stack : List Context)
      (uncommented : ∀ start outer, stack ≠ .comment start :: outer)
      (apart : c = '*' → machine.token.getLast? ≠ some '/') :
      { machine.take c with stack }.clearing = machine.clearing.next c := by
    rw [clearing_of_unquoted unquoted, Clearing.next_kept fun _ => apart]
    exact clearing_of_uncommented { machine.take c with stack } uncommented
  cases role machine.token c with
  | quote isQuote =>
    rw [step_opening_quote machine unquoted c isQuote]
    refine .goesOn rfl rfl rfl (keeps (.quoted c :: machine.stack) (by simp) ?_)
      (List.mem_cons_of_mem _)
    rintro rfl
    exact absurd isQuote (by decide)
  | star front slash isStar =>
    subst isStar
    rw [step_opening_star machine unquoted front slash]
    refine .goesOn rfl rfl rfl ?_ (List.mem_cons_of_mem _)
    rw [slash, closed_concat_iff front '/' (by decide)] at closed
    rw [clearing_of_unquoted unquoted, slash, Clearing.next_opener closed]
    apply clearing_of_comment _ front [] machine.stack rfl
    simp only [enter, take, slash, List.append_assoc, List.cons_append, List.nil_append]
  | boundary fresh isBoundary =>
    rw [step_boundary machine unquoted c fresh isBoundary]
    exact .cuts machine.stack rfl
  | plain noQuote apart noBoundary =>
    rw [step_readPlain machine unquoted c noQuote apart noBoundary]
    rcases readPlain_cases (machine.take c) c unquoted with
      ⟨stack, read, stillUnquoted, inBody⟩ | ⟨stack, emission, read, silent⟩ |
        ⟨read, topLevel, brace⟩
    · rw [read]
      refine .goesOn rfl rfl rfl (keeps stack ?_ apart) inBody
      rintro start outer rfl
      exact stillUnquoted
    · rw [read]
      exact .cuts stack silent
    · rw [read]
      exact .opens topLevel brace

/-- What a step of a coherent machine does. Coherence tells that the machine is in a string
    exactly when the token leaves one open, and where the open comment begins. -/
theorem Coherent.advance {machine : Machine} (coherent : machine.Coherent) (c : Char) :
    Advance machine c (machine.step c) := by
  cases coherent with
  | uncommented rule outer stop between fits stack =>
    cases opened : (Quotation.after machine.token).quote with
    | some quote =>
      have notClosed : ¬Closed machine.token := by
        intro closed
        rw [Closed, opened] at closed
        cases closed
      rw [Quotation.contexts_of_quote opened] at stack
      rw [step_string machine [] machine.token _ c quote stack rfl opened]
      have inString : ∀ start outer, machine.stack ≠ .comment start :: outer := by
        simp [stack]
      refine .goesOn rfl rfl rfl ?_ ?_
      · rw [clearing_of_uncommented machine inString,
          Clearing.next_kept fun closed => absurd closed notClosed]
        apply clearing_of_uncommented
        intro start rest
        rw [Quotation.contexts]
        cases (Quotation.after (machine.token ++ [c])).quote with
        | some quote => simp
        | none =>
          intro same
          have unquoted := between.unquoted_within rule
          rw [show Context.within rule outer = .comment start :: rest from same] at unquoted
          exact unquoted
      · intro inBody
        rw [stack] at inBody
        exact List.mem_append_right _ (by simpa using inBody)
    | none =>
      have closed : Closed machine.token := opened
      rw [closed.contexts, List.nil_append] at stack
      exact advance_unquoted (stack ▸ between.unquoted_within rule) closed c
  | commented rule outer stop front inside between fits closed unended token stack =>
    have clearing := machine.clearing_of_comment front inside _ stack token
    have inBody (member : .ruleBody ∈ machine.stack) :
        .ruleBody ∈ Context.within rule outer := by
      rw [stack] at member
      simpa using member
    rw [step_comment machine front inside _ c stack token]
    by_cases closer : ['*', '/'] <:+ inside ++ [c]
    · rw [if_pos closer]
      refine .goesOn rfl rfl rfl ?_ inBody
      rw [clearing, Clearing.next]
      simp only [if_pos closer]
      exact clearing_of_unquoted (between.unquoted_within rule)
    · rw [if_neg closer]
      refine .goesOn rfl rfl rfl ?_ id
      rw [clearing, Clearing.next]
      simp only [if_neg closer]
      apply clearing_of_comment (machine.take c) front (inside ++ [c]) _ stack
      rw [take, token]
      simp only [List.append_assoc, List.cons_append]

end Machine

end SelectorLint.Stylesheet
