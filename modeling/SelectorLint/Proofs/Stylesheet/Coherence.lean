import SelectorLint.Proofs.Stylesheet.Completeness

/-!
# Coherence of contexts and token

The contexts of a machine and its token describe the same text twice. Behind every text
they fit together: the contexts are at most a string or comment, in an at-rule, in the
body of a rule; the string is the one that the token leaves open; the at-rule is the one
that the token begins, moved on by the characters of the token outside strings; the
comment stands at the end of the token, behind its opener, and is not closed.

One invariant says all of it. A step preserves it, so a run from a fresh machine has it.
The representation of a machine by layers of contexts is read off the invariant.
-/

namespace SelectorLint.Stylesheet

open Text

/-- The contexts around the strings and comments of a token: an at-rule, if the token is
    part of one, in the contexts where the token began. -/
def Context.within (rule : Option AtRule) (outer : List Context) : List Context :=
  (rule.map .atRule).toList ++ outer

/-- Around a token no string or comment is open. -/
theorem Context.Between.unquoted_within {outer : List Context} {stop : Char}
    (between : Between outer stop) (rule : Option AtRule) : Unquoted (within rule outer) := by
  cases rule with
  | none => exact between.unquoted
  | some rule => trivial

/-- A quote is no boundary by itself. -/
theorem noBoundary_of_isQuote {c : Char} (quote : isQuote c = true) :
    isBlank c = false ∧ c ≠ '}' := by
  simp only [isQuote, decide_eq_true_eq] at quote
  rcases quote with rfl | rfl
  · decide
  · decide

/-- A token without the comment that may be open in it, in the contexts where it is read:
    in an at-rule, or in none and up to the character that ends a token there. -/
structure Fits (rule : Option AtRule) (stop : Char) (token : List Char) : Prop where
  /-- Comments were cut out. -/
  uncommented : Uncommented token
  /-- The first character is no boundary by itself. -/
  first : ∀ c ∈ token.head?, isBlank c = false ∧ c ≠ '}'
  /-- The at-rule is the one that the token begins. -/
  begun : AtRule.ofToken? token = rule.map AtRule.initial
  /-- The characters outside strings have moved the at-rule to where it is. -/
  moved : ∀ reached ∈ rule,
    (outside token).foldlM AtRule.advance? reached.initial = some reached
  /-- In no at-rule, the character that ends the token has not come. -/
  unended : rule = none → stop ∉ outside token

namespace Fits

variable {rule : Option AtRule} {stop : Char} {token : List Char}

/-- An empty token fits where tokens begin. -/
theorem empty (stop : Char) : Fits none stop [] where
  uncommented := by decide
  first := by simp
  begun := by decide
  moved := by simp
  unended _ := by simp

/-- A token in an at-rule holds its keyword. -/
theorem rule_eq_none (fits : Fits rule stop []) : rule = none := by
  have begun : none = rule.map AtRule.initial := fits.begun
  exact Option.map_eq_none_iff.mp begun.symm

/-- A further character that opens no comment and is no boundary by itself. What it does to
    the at-rule is left to the caller. -/
theorem concat (fits : Fits rule stop token) (c : Char) (next : Option AtRule)
    (apart : Closed token → c = '*' → token.getLast? ≠ some '/')
    (noBoundary : token = [] → isBlank c = false ∧ c ≠ '}')
    (begun : AtRule.ofToken? (token ++ [c]) = next.map AtRule.initial)
    (moved : ∀ reached ∈ next,
      (outside (token ++ [c])).foldlM AtRule.advance? reached.initial = some reached)
    (unended : next = none → stop ∉ outside (token ++ [c])) :
    Fits next stop (token ++ [c]) where
  uncommented := fits.uncommented.concat c apart
  first := by
    cases token with
    | nil =>
      intro other first
      obtain rfl : c = other := by simpa using first
      exact noBoundary rfl
    | cons d rest => exact fits.first
  begun := begun
  moved := moved
  unended := unended

/-- A quote, or a character of a string, changes nothing around the token. -/
theorem concat_quoted (fits : Fits rule stop token) (c : Char)
    (quoted : ¬(Closed token ∧ isQuote c = false)) : Fits rule stop (token ++ [c]) := by
  have sameOutside : outside (token ++ [c]) = outside token := by
    rw [outside_concat, if_neg quoted, List.append_nil]
  have isQuote_of_closed (closed : Closed token) : isQuote c = true := by
    by_contra noQuote
    exact quoted ⟨closed, by simpa using noQuote⟩
  apply fits.concat c rule
  · rintro closed rfl
    exact absurd (isQuote_of_closed closed) (by decide)
  · rintro rfl
    exact noBoundary_of_isQuote (isQuote_of_closed rfl)
  · by_cases closed : Closed token
    · rw [AtRule.ofToken?_append_cons token [] (.inl (isQuote_of_closed closed))]
      exact fits.begun
    · rw [AtRule.ofToken?_concat_of_not_closed closed]
      exact fits.begun
  · rw [sameOutside]
    exact fits.moved
  · rw [sameOutside]
    exact fits.unended

/-- A character outside strings moves the at-rule on. -/
theorem concat_atRule {reached next : AtRule} (fits : Fits (some reached) stop token) (c : Char)
    (apart : c = '*' → token.getLast? ≠ some '/') (closed : Closed token)
    (noQuote : isQuote c = false) (advanced : reached.advance? c = some next) :
    Fits (some next) stop (token ++ [c]) := by
  have same : next.initial = reached.initial := AtRule.initial_of_advance? advanced
  apply fits.concat c (some next) (fun _ => apart)
  · rintro rfl
    exact absurd fits.rule_eq_none (by simp)
  · rw [AtRule.ofToken?_append fits.begun, Option.map_some, same]
  · intro other isNext
    obtain rfl : next = other := by simpa using isNext
    rw [outside_concat, if_pos ⟨closed, noQuote⟩, same, List.foldlM_append,
      fits.moved reached rfl, Option.bind_eq_bind, Option.bind_some, List.foldlM_cons, advanced]
    rfl
  · intro impossible
    cases impossible

/-- The character that completes a keyword begins the at-rule. -/
theorem concat_keyword {begun : AtRule} (fits : Fits none stop token) (c : Char)
    (begins : AtRule.ofToken? (token ++ [c]) = some begun)
    (apart : c = '*' → token.getLast? ≠ some '/')
    (noBoundary : token = [] → isBlank c = false ∧ c ≠ '}') :
    Fits (some begun) stop (token ++ [c]) := by
  obtain ⟨initial, still⟩ :=
    AtRule.initial_of_mem_keywords (AtRule.mem_keywords_of_concat fits.begun begins)
  apply fits.concat c (some begun) (fun _ => apart) noBoundary
  · rw [begins, Option.map_some]
    exact congrArg some initial.symm
  · intro other isBegun
    obtain rfl : begun = other := by simpa using isBegun
    rw [show begun.initial = begun from initial]
    exact still
  · intro impossible
    cases impossible

/-- In no at-rule, another character than the one that ends the token leaves it open. -/
theorem concat_plain (fits : Fits none stop token) (c : Char)
    (noRule : AtRule.ofToken? (token ++ [c]) = none)
    (apart : c = '*' → token.getLast? ≠ some '/')
    (noBoundary : token = [] → isBlank c = false ∧ c ≠ '}') (other : c ≠ stop) :
    Fits none stop (token ++ [c]) := by
  apply fits.concat c none (fun _ => apart) noBoundary noRule
  · intro reached impossible
    cases impossible
  · intro _ member
    rw [outside_concat, List.mem_append] at member
    rcases member with before | last
    · exact fits.unended rfl before
    · split at last
      · exact other (List.mem_singleton.mp last).symm
      · exact absurd last List.not_mem_nil

/-- Keyframes have counted the braces of the token outside strings, which do not balance. -/
theorem counted {opened closed : Nat} (fits : Fits (some (.keyframes opened closed)) stop token) :
    opened = (outside token).count '{' ∧ closed = (outside token).count '}' ∧
      (opened = 0 ∨ opened ≠ closed) := by
  obtain ⟨same, unbalanced⟩ := AtRule.eq_keyframes_of_foldlM _ _ (fits.moved _ rfl)
  obtain ⟨rfl, rfl⟩ := AtRule.keyframes.inj same
  refine ⟨rfl, rfl, ?_⟩
  omega

/-- A slash at the end of a token may become part of a comment opener. The token in front of
    it fits the same contexts: a slash completes no keyword and moves no at-rule on. -/
theorem of_concat_slash (fits : Fits rule stop (token ++ ['/'])) (closed : Closed token) :
    Fits rule stop token where
  uncommented := fits.uncommented.of_isPrefix (List.prefix_append token _)
  first := by
    cases token with
    | nil => simp
    | cons d rest => exact fits.first
  begun := by
    rw [← fits.begun, AtRule.ofToken?_append_cons token [] (.inr (.inl rfl))]
  moved := by
    intro reached isRule
    have moved := fits.moved reached isRule
    rw [outside_concat, if_pos ⟨closed, by decide⟩, List.foldlM_append, Option.bind_eq_bind,
      Option.bind_eq_some_iff] at moved
    obtain ⟨before, movedBefore, advanced⟩ := moved
    rw [List.foldlM_cons, Option.bind_eq_bind, Option.bind_eq_some_iff] at advanced
    obtain ⟨next, advanced, same⟩ := advanced
    obtain rfl : next = reached := Option.some.inj same
    have initial : before.initial = next.initial := (AtRule.initial_of_advance? advanced).symm
    have still : before.advance? '/' = some before :=
      AtRule.advance?_of_unfinished _ before (initial ▸ movedBefore) '/' (by decide)
    rw [movedBefore, ← still, advanced]
  unended noRule member :=
    fits.unended noRule ((outside_isPrefix _ _ (List.prefix_append token _)).mem member)

end Fits

namespace Machine

/-- A machine whose contexts and token fit together. -/
inductive Coherent (machine : Machine) : Prop where
  /-- No comment is open. The contexts have the string that the token leaves open. -/
  | uncommented (rule : Option AtRule) (outer : List Context) (stop : Char)
      (between : Context.Between outer stop) (fits : Fits rule stop machine.token)
      (stack : machine.stack =
        (Quotation.after machine.token).contexts ++ Context.within rule outer)
  /-- A comment is open. It is the end of the token and its closer has not come. -/
  | commented (rule : Option AtRule) (outer : List Context) (stop : Char)
      (front inside : List Char) (between : Context.Between outer stop)
      (fits : Fits rule stop front) (closed : Closed front) (unended : ¬['*', '/'] <:+: inside)
      (token : machine.token = front ++ '/' :: '*' :: inside)
      (stack : machine.stack = .comment (byteLength front) :: Context.within rule outer)

/-- Between two tokens a machine is coherent. -/
theorem coherent_of_boundary (machine : Machine) {stop : Char}
    (between : Context.Between machine.stack stop) (boundary : machine.token = []) :
    machine.Coherent := by
  refine .uncommented none machine.stack stop between ?_ ?_
  · rw [boundary]
    exact .empty stop
  · rw [boundary]
    rfl

section Outside

-- A machine whose token leaves no string open and in which no comment is open.
variable {machine : Machine} {rule : Option AtRule} {outer : List Context} {stop : Char}
  (between : Context.Between outer stop) (fits : Fits rule stop machine.token)
  (closed : Closed machine.token) (stack : machine.stack = Context.within rule outer)

include between fits closed stack

/-- A character that is read by what it means in the innermost context: the token goes on, or
    it ends and another begins in the contexts around it. -/
theorem coherent_readPlain (c : Char) (noQuote : isQuote c = false)
    (apart : c = '*' → machine.token.getLast? ≠ some '/')
    (noBoundary : machine.token = [] → isBlank c = false ∧ c ≠ '}') :
    ((machine.take c).readPlain c).1.Coherent := by
  have stillClosed : Closed (machine.token ++ [c]) :=
    (closed_concat_iff machine.token c noQuote).mpr closed
  have goesOn (next : Option AtRule) (fits : Fits next stop (machine.token ++ [c])) :
      { machine.take c with stack := Context.within next outer }.Coherent := by
    refine .uncommented next outer stop between fits ?_
    change Context.within next outer =
      (Quotation.after (machine.token ++ [c])).contexts ++ Context.within next outer
    rw [stillClosed.contexts, List.nil_append]
  cases rule with
  | some reached =>
    have inRule : (machine.take c).stack = .atRule reached :: outer := stack
    cases advanced : reached.advance? c with
    | some next =>
      simp only [readPlain, inRule, advanced]
      exact goesOn (some next) (fits.concat_atRule c apart closed noQuote advanced)
    | none =>
      simp only [readPlain, inRule, advanced]
      exact coherent_of_boundary _ between rfl
  | none =>
    have isOuter : (machine.take c).stack = outer := stack
    have around : Context.Between (machine.take c).stack stop := isOuter ▸ between
    cases begins : AtRule.ofToken? (machine.take c).token with
    | some begun =>
      rw [readPlain_keyword (machine.take c) around begins, enter, isOuter]
      exact goesOn (some begun) (fits.concat_keyword c begins apart noBoundary)
    | none =>
      by_cases ends : c = stop
      · subst ends
        cases between with
        | topLevel =>
          have inBody : Context.Between ((machine.take '{').enter .ruleBody).cut.stack '}' := by
            rw [enter, cut, isOuter]
            exact .body
          simp only [readPlain, isOuter, begins, if_pos]
          exact coherent_of_boundary _ inBody rfl
        | body =>
          simp only [readPlain, isOuter, begins, if_pos]
          exact coherent_of_boundary _ .topLevel rfl
      · have unchanged : { machine.take c with stack := Context.within none outer } =
            machine.take c := by
          rw [← stack]
          rfl
        rw [readPlain_between (machine.take c) around begins ends, ← unchanged]
        exact goesOn none (fits.concat_plain c begins apart noBoundary ends)

/-- A character outside strings and comments, by its role. When a star opens a comment, the
    slash in front of it is no longer part of what the token holds in front of the comment. -/
theorem coherent_step_unquoted (c : Char) : (machine.step c).1.Coherent := by
  have unquoted : Context.Unquoted machine.stack := by
    rw [stack]
    exact between.unquoted_within rule
  cases role machine.token c with
  | quote isQuote =>
    rw [step_opening_quote machine unquoted c isQuote]
    refine .uncommented rule outer stop between (fits.concat_quoted c (by simp [isQuote])) ?_
    change .quoted c :: machine.stack =
      (Quotation.after (machine.token ++ [c])).contexts ++ Context.within rule outer
    rw [stack, closed.contexts_concat_quote isQuote]
    rfl
  | star front slash isStar =>
    subst isStar
    rw [slash] at fits closed
    have frontClosed : Closed front := (closed_concat_iff front '/' (by decide)).mp closed
    rw [step_opening_star machine unquoted front slash]
    refine .commented rule outer stop front [] between (fits.of_concat_slash frontClosed)
      frontClosed (by decide) ?_ ?_
    · change machine.token ++ ['*'] = front ++ ['/', '*']
      rw [slash, List.append_assoc]
      rfl
    · change .comment (byteLength front) :: machine.stack = _
      rw [stack]
  | boundary fresh isBoundary =>
    rw [fresh] at fits
    obtain rfl : rule = none := fits.rule_eq_none
    have around : Context.Between machine.stack stop := by
      rw [stack]
      exact between
    rw [step_boundary machine unquoted c fresh isBoundary]
    exact coherent_of_boundary (machine.take c).cut around rfl
  | plain noQuote apart noBoundary =>
    rw [step_readPlain machine unquoted c noQuote apart noBoundary]
    exact coherent_readPlain between fits closed stack c noQuote apart noBoundary

end Outside

/-- Every character keeps a machine coherent. -/
theorem Coherent.step {machine : Machine} (coherent : machine.Coherent) (c : Char) :
    (machine.step c).1.Coherent := by
  cases coherent with
  | uncommented rule outer stop between fits stack =>
    cases opened : (Quotation.after machine.token).quote with
    | some quote =>
      have notClosed : ¬Closed machine.token := by
        intro closed
        rw [Closed, opened] at closed
        cases closed
      rw [Quotation.contexts_of_quote opened] at stack
      rw [step_string machine [] machine.token _ c quote stack rfl opened]
      exact .uncommented rule outer stop between
        (fits.concat_quoted c fun inside => notClosed inside.1) rfl
    | none =>
      have closed : Closed machine.token := opened
      rw [closed.contexts, List.nil_append] at stack
      exact coherent_step_unquoted between fits closed stack c
  | commented rule outer stop front inside between fits closed unended token stack =>
    rw [step_comment machine front inside _ c stack token]
    split
    · refine .uncommented rule outer stop between fits ?_
      rw [closed.contexts]
      rfl
    · rename_i noCloser
      refine .commented rule outer stop front (inside ++ [c]) between fits closed ?_ ?_ stack
      · rw [List.infix_concat_iff]
        exact not_or.mpr ⟨noCloser, unended⟩
      · rw [take, token]
        simp only [List.append_assoc, List.cons_append]

/-- Every text keeps a machine coherent. -/
theorem Coherent.run {machine : Machine} (coherent : machine.Coherent) (text : List Char) :
    (machine.run text).1.Coherent := by
  induction text using List.reverseRecOn with
  | nil => exact coherent
  | append_singleton text c inductionHypothesis =>
    rw [run_append, run_singleton]
    exact inductionHypothesis.step c

/-- A fresh machine is coherent. -/
theorem coherent_fresh (file : String) : Coherent { file } :=
  coherent_of_boundary { file } .topLevel rfl

/-- A machine that has read a text from the beginning is coherent. -/
theorem coherent_run (file : String) (text : List Char) :
    (Machine.run { file } text).1.Coherent :=
  (coherent_fresh file).run text

/-- Outside strings and comments the token of a coherent machine leaves no string open, and
    the contexts are those around it. -/
theorem Coherent.of_unquoted {machine : Machine} (coherent : machine.Coherent)
    (unquoted : Context.Unquoted machine.stack) :
    ∃ rule outer stop, Context.Between outer stop ∧ Fits rule stop machine.token ∧
      Closed machine.token ∧ machine.stack = Context.within rule outer := by
  cases coherent with
  | uncommented rule outer stop between fits stack =>
    cases opened : (Quotation.after machine.token).quote with
    | some quote =>
      rw [stack, Quotation.contexts_of_quote opened] at unquoted
      exact unquoted.elim
    | none =>
      have closed : Closed machine.token := opened
      rw [closed.contexts, List.nil_append] at stack
      exact ⟨rule, outer, stop, between, fits, closed, stack⟩
  | commented rule outer stop front inside between fits closed unended token stack =>
    rw [stack] at unquoted
    exact unquoted.elim

/-- What the token holds in front of the comment that is open, and the whole token where none
    is. -/
def kept (machine : Machine) : List Char :=
  match machine.stack with
  | .comment start :: _ => ((machine.comment? start).map (·.1)).getD machine.token
  | _ => machine.token

/-- Where no comment is open the whole token is kept. -/
theorem kept_of_uncommented (machine : Machine)
    (uncommented : ∀ start outer, machine.stack ≠ .comment start :: outer) :
    machine.kept = machine.token := by
  rw [kept]
  split
  · rename_i start outer stack
    exact absurd stack (uncommented start outer)
  · rfl

/-- The token in front of an open comment is kept. -/
theorem kept_of_comment (machine : Machine) (front inside : List Char) (outer : List Context)
    (stack : machine.stack = .comment (byteLength front) :: outer)
    (token : machine.token = front ++ '/' :: '*' :: inside) : machine.kept = front := by
  simp only [kept, stack, comment?_of_token machine front inside token, Option.map_some,
    Option.getD_some]

end Machine

/-- What can interrupt the reading of a token. -/
inductive Interruption where
  /-- A string, with the quote that opened it. -/
  | quoted (quote : Char)
  /-- A comment, with the byte offset of its opener in the token. -/
  | comment (start : Nat)
  deriving DecidableEq, Repr

/-- The context of an interruption. -/
def Interruption.context : Interruption → Context
  | quoted quote => .quoted quote
  | comment start => .comment start

/-- The layers of contexts. Each is there at most once, and a layer that is not there leaves
    no gap. -/
structure Layers where
  /-- The string or the comment, if one is open. -/
  interruption : Option Interruption
  /-- The at-rule, if one is being passed over. -/
  rule : Option AtRule
  /-- Whether all of this stands in the body of a rule. -/
  inBody : Bool
  deriving DecidableEq, Repr

namespace Layers

/-- The contexts of the layers, innermost first. -/
def stack (layers : Layers) : List Context :=
  (layers.interruption.map Interruption.context).toList ++
    Context.within layers.rule (if layers.inBody then [.ruleBody] else [])

/-- There are three layers. -/
theorem length_stack_le (layers : Layers) : layers.stack.length ≤ 3 := by
  obtain ⟨interruption, rule, inBody⟩ := layers
  cases interruption <;> cases rule <;> cases inBody <;> simp [stack, Context.within]

end Layers

/-- A machine whose contexts are given layers and whose token is what these layers stand
    for. -/
structure Represents (layers : Layers) (machine : Machine) : Prop where
  /-- The contexts are the layers. -/
  stack : machine.stack = layers.stack
  /-- The token begins the at-rule of the layers, and none where they have none. -/
  begun : AtRule.ofToken? machine.token = layers.rule.map AtRule.initial
  /-- The first character of the token is no boundary by itself. -/
  first : ∀ c ∈ machine.token.head?, isBlank c = false ∧ c ≠ '}'
  /-- Keyframes have counted the braces outside strings and outside the open comment, and the
      counts are not those that end the at-rule. -/
  counted : ∀ opened closed, layers.rule = some (.keyframes opened closed) →
    opened = (outside machine.kept).count '{' ∧ closed = (outside machine.kept).count '}' ∧
      (opened = 0 ∨ opened ≠ closed)
  /-- An open comment has its opener at its offset, and no closer behind the opener. -/
  commented : ∀ start, layers.interruption = some (.comment start) →
    ∃ front inside, splitAtByte? start machine.token = some (front, '/' :: '*' :: inside) ∧
      ¬['*', '/'] <:+: inside

/-- Tokens begin at the top level or in the body of a rule. -/
theorem Context.Between.exists_inBody {outer : List Context} {stop : Char}
    (between : Between outer stop) :
    ∃ inBody : Bool, outer = if inBody then [.ruleBody] else [] := by
  cases between with
  | topLevel => exact ⟨false, rfl⟩
  | body => exact ⟨true, rfl⟩

/-- A coherent machine is represented by layers. -/
theorem Machine.Coherent.exists_layers {machine : Machine} (coherent : machine.Coherent) :
    ∃ layers, Represents layers machine := by
  cases coherent with
  | uncommented rule outer stop between fits stack =>
    obtain ⟨inBody, rfl⟩ := between.exists_inBody
    have interruption : (Quotation.after machine.token).contexts =
        (((Quotation.after machine.token).quote.map .quoted).map Interruption.context).toList := by
      rw [Quotation.contexts, Option.map_map, Option.toList_map]
      rfl
    have kept : machine.kept = machine.token := by
      apply kept_of_uncommented
      intro start rest
      rw [stack, Quotation.contexts]
      cases (Quotation.after machine.token).quote <;> cases rule <;> cases inBody <;>
        simp [Context.within]
    rw [interruption] at stack
    refine ⟨⟨(Quotation.after machine.token).quote.map .quoted, rule, inBody⟩, stack, fits.begun,
      fits.first, ?_, ?_⟩
    · rintro opened closed rfl
      rw [kept]
      exact fits.counted
    · intro start isComment
      simp at isComment
  | commented rule outer stop front inside between fits closed unended token stack =>
    obtain ⟨inBody, rfl⟩ := between.exists_inBody
    refine ⟨⟨some (.comment (byteLength front)), rule, inBody⟩, stack, ?_, ?_, ?_, ?_⟩
    · rw [token, AtRule.ofToken?_append_cons front _ (.inr (.inl rfl))]
      exact fits.begun
    · intro c first
      rw [token, List.head?_append] at first
      cases front with
      | nil =>
        obtain rfl : '/' = c := Option.some.inj first
        decide
      | cons d rest => exact fits.first c first
    · rintro opened closed rfl
      rw [machine.kept_of_comment front inside _ stack token]
      exact fits.counted
    · intro start isComment
      obtain rfl : byteLength front = start := by simpa using isComment
      refine ⟨front, inside, ?_, unended⟩
      rw [token, splitAtByte?_append]

/-- Behind every text the contexts of a machine are a string or comment, in an at-rule, in
    the body of a rule, each layer at most once and none of them needed, and the token is
    what these contexts stand for. -/
theorem run_represented (file : String) (text : List Char) :
    ∃ layers, Represents layers (Machine.run { file } text).1 ∧
      (Machine.run { file } text).1.stack.length ≤ 3 := by
  obtain ⟨layers, represents⟩ := (Machine.coherent_run file text).exists_layers
  refine ⟨layers, represents, ?_⟩
  rw [represents.stack]
  exact layers.length_stack_le

end SelectorLint.Stylesheet
