import SelectorLint.Proofs.Stylesheet.Agreement
import SelectorLint.Proofs.Stylesheet.Coherence
import SelectorLint.Proofs.Text.Trim

/-!
# Strings are opaque

A string outside strings and comments is taken into the token, from quote to quote, and
changes nothing else. What it holds stays in the token, where later characters look for
keywords, comment openers, boundaries and backslashes. None of them looks into the string:
two machines whose tokens differ in one string only do the same with every text that follows.

The two runs are followed together. As long as the token with the string goes on, the machines
differ in that string and in the byte offset of an open comment behind it. The character that
ends this token ends it for both, and from there on the machines agree. So only the first
prelude behind the string can differ, and only in the string.
-/

namespace SelectorLint.Stylesheet

open Text

/-- The text of a string. -/
def literal (quote : Char) (content : List Char) : List Char := quote :: (content ++ [quote])

/-- Text that a string can hold: its quote stands in it only directly behind a backslash, and
    the quote behind it does not. -/
structure Quotable (quote : Char) (content : List Char) : Prop where
  /-- The quote opens a string. -/
  isQuote : isQuote quote = true
  /-- Every quote of this kind follows a backslash. -/
  escaped : ∀ cut < content.length, [quote] <+: content.drop cut →
    (content.take cut).getLast? = some '\\'
  /-- The last character is no backslash. -/
  unescaping : content.getLast? ≠ some '\\'

instance (quote : Char) (content : List Char) : Decidable (Quotable quote content) :=
  decidable_of_iff (Stylesheet.isQuote quote = true ∧
      (∀ cut < content.length, [quote] <+: content.drop cut →
        (content.take cut).getLast? = some '\\') ∧ content.getLast? ≠ some '\\')
    ⟨fun ⟨isQuote, escaped, unescaping⟩ => ⟨isQuote, escaped, unescaping⟩,
      fun ⟨isQuote, escaped, unescaping⟩ => ⟨isQuote, escaped, unescaping⟩⟩

namespace Quotable

variable {quote : Char} {content : List Char}

/-- The string is open behind every part of its text but the whole. -/
theorem open_of_isPrefix (quotable : Quotable quote content) (part : List Char)
    (isPart : part <+: content) : (Quotation.after (quote :: part)).quote = some quote := by
  induction part using List.reverseRecOn with
  | nil => simp [Quotation.after, Quotation.next, quotable.isQuote]
  | append_singleton part c inductionHypothesis =>
    have opened := inductionHypothesis ((List.prefix_append part [c]).trans isPart)
    have goesOn : ¬(c = quote ∧ (Quotation.after (quote :: part)).backslash = false) := by
      rintro ⟨rfl, noBackslash⟩
      obtain ⟨rest, rfl⟩ := isPart
      have last : part.getLast? = some '\\' := by
        have escaped := quotable.escaped part.length (by simp)
        rw [List.append_assoc, List.drop_left, List.take_left] at escaped
        exact escaped (List.prefix_append _ _)
      rw [Quotation.after_backslash, List.getLast?_cons, last] at noBackslash
      simp at noBackslash
    rw [← List.cons_append, Quotation.after_concat, Quotation.next, opened]
    exact if_neg goesOn

/-- The string is closed behind its text. -/
theorem closed (quotable : Quotable quote content) : Closed (literal quote content) := by
  have opened := quotable.open_of_isPrefix content (List.prefix_refl content)
  have noBackslash : (Quotation.after (quote :: content)).backslash = false := by
    have noBackslash : content.getLast?.getD quote ≠ '\\' := by
      cases last : content.getLast? with
      | none =>
        rintro rfl
        exact absurd quotable.isQuote (by decide)
      | some c =>
        rintro rfl
        exact quotable.unescaping last
    rw [Quotation.after_backslash, List.getLast?_cons]
    simp [noBackslash]
  rw [Closed, literal, ← List.cons_append, Quotation.after_concat, Quotation.next, opened]
  exact if_pos ⟨rfl, noBackslash⟩

end Quotable

/-- A context without the offset of a comment. -/
def Context.withoutOffset : Context → Context
  | .comment _ => .comment 0
  | context => context

namespace Machine

/-- A string outside strings and comments is taken, and nothing else happens. -/
theorem run_literal (machine : Machine) {quote : Char} {content : List Char}
    (unquoted : Context.Unquoted machine.stack) (quotable : Quotable quote content) :
    machine.run (literal quote content) =
      (machine.taken (literal quote content) machine.stack, []) := by
  have parts (part : List Char) : part <+: literal quote content →
      machine.run part =
        (machine.taken part ((Quotation.after part).contexts ++ machine.stack), []) := by
    induction part using List.reverseRecOn with
    | nil =>
      intro _
      rw [run_nil, taken, List.append_nil]
      rfl
    | append_singleton part c inductionHypothesis =>
      intro isPart
      have inString : part <+: quote :: content := by
        rw [literal, ← List.cons_append, List.prefix_concat_iff] at isPart
        rcases isPart with whole | shorter
        · rw [List.append_inj_left' whole rfl]
        · exact (List.prefix_append part [c]).trans shorter
      rw [run_append, inductionHypothesis ((List.prefix_append part [c]).trans isPart)]
      dsimp only
      rw [run_singleton]
      rcases List.prefix_cons_iff.mp inString with rfl | ⟨rest, rfl, isContent⟩
      · obtain ⟨rfl, _⟩ := List.cons_prefix_cons.mp isPart
        have nothing : Closed [] := rfl
        rw [nothing.contexts, List.nil_append,
          step_opens_string machine [] machine.stack c unquoted nothing quotable.isQuote]
        rfl
      · rw [step_in_string machine _ machine.stack c quote
          (quotable.open_of_isPrefix rest isContent)]
        rfl
  rw [parts _ (List.prefix_refl _), quotable.closed.contexts]
  rfl

/-- A token that holds a string. -/
def holding (quote : Char) (front back content : List Char) : List Char :=
  front ++ literal quote content ++ back

section Holding

variable {quote : Char} (isQuote : isQuote quote = true) (front back content : List Char)

include isQuote

/-- Which at-rule a token begins is settled in front of its first quote. -/
theorem ofToken?_holding :
    AtRule.ofToken? (holding quote front back content) = AtRule.ofToken? front := by
  rw [holding, literal, List.append_assoc, List.cons_append]
  exact AtRule.ofToken?_append_cons front _ (.inl isQuote)

/-- The last character of a token that ends behind a string is not in the string. -/
theorem getLast?_holding_eq_slash_iff :
    (holding quote front back content).getLast? = some '/' ↔ back.getLast? = some '/' := by
  rw [holding, List.getLast?_append]
  cases back.getLast? with
  | some c => rfl
  | none =>
    have last : (front ++ literal quote content).getLast? = some quote := by
      rw [literal, ← List.cons_append, ← List.append_assoc, List.getLast?_concat]
    rw [last, Option.none_or]
    constructor
    · rintro slash
      obtain rfl : quote = '/' := Option.some.inj slash
      exact absurd isQuote (by decide)
    · intro impossible
      cases impossible

/-- Trimming a token does not reach into a string. -/
theorem trim_holding :
    trim (holding quote front back content) =
      holding quote (trimStart front) (trimEnd back) content := by
  have notBlank : isBlank quote = false := (noBoundary_of_isQuote isQuote).1
  have first : trimStart (holding quote front back content) =
      holding quote (trimStart front) back content := by
    simp only [holding, literal, List.append_assoc, List.cons_append]
    exact trimStart_append_cons front _ notBlank
  have last (front : List Char) : trimEnd (holding quote front back content) =
      holding quote front (trimEnd back) content := by
    have split (rest : List Char) : holding quote front rest content =
        (front ++ quote :: content) ++ quote :: rest := by
      simp only [holding, literal, List.append_assoc, List.cons_append, List.nil_append]
    rw [split, split]
    exact trimEnd_append_cons _ _ notBlank
  rw [trim, first, last]

end Holding

/-- A further character stands behind the string. -/
theorem holding_concat (quote : Char) (front back content : List Char) (c : Char) :
    holding quote front back content ++ [c] = holding quote front (back ++ [c]) content := by
  rw [holding, holding, List.append_assoc]

/-- The token of a machine that takes a further character. -/
theorem take_holding {machine : Machine} {quote : Char} {front back content : List Char}
    (token : machine.token = holding quote front back content) (c : Char) :
    (machine.take c).token = holding quote front (back ++ [c]) content := by
  rw [take, token, holding_concat]

/-- Two machines whose tokens differ in what one string holds. -/
inductive Differ (quote : Char) (content other : List Char) (first second : Machine) : Prop where
  /-- Outside strings and comments. -/
  | plain (front back : List Char) (unquoted : Context.Unquoted first.stack)
      (stack : first.stack = second.stack)
      (firstToken : first.token = holding quote front back content)
      (secondToken : second.token = holding quote front back other)
  /-- In another string, which was opened behind the one that differs. -/
  | quoted (front back : List Char) (opener : Char) (outer : List Context)
      (unquoted : Context.Unquoted outer) (opened : back ≠ [])
      (firstStack : first.stack = .quoted opener :: outer)
      (secondStack : second.stack = .quoted opener :: outer)
      (firstToken : first.token = holding quote front back content)
      (secondToken : second.token = holding quote front back other)
  /-- In a comment, which was opened behind the string. The offsets of its opener differ with
      the lengths of what the string holds. -/
  | commented (front back inside : List Char) (outer : List Context)
      (unquoted : Context.Unquoted outer)
      (firstStack : first.stack =
        .comment (byteLength (holding quote front back content)) :: outer)
      (secondStack : second.stack =
        .comment (byteLength (holding quote front back other)) :: outer)
      (firstToken : first.token =
        holding quote front back content ++ '/' :: '*' :: inside)
      (secondToken : second.token =
        holding quote front back other ++ '/' :: '*' :: inside)

/-- Two texts that may differ in what one string holds, or no text at all. -/
def Exchanged (quote : Char) (content other : List Char) (first second : Option (List Char)) :
    Prop :=
  first = second ∨ ∃ front back, first = some (holding quote front back content) ∧
    second = some (holding quote front back other)

/-- Texts that are the same but for what one string of the first holds, if even that. -/
def ReplacedFirst (quote : Char) (content other : List Char) (first second : List (List Char)) :
    Prop :=
  first = second ∨ ∃ front back rest, first = holding quote front back content :: rest ∧
    second = holding quote front back other :: rest

/-- What machines that differ in a string answer to a character. -/
inductive Answers (quote : Char) (content other : List Char)
    (first second : Machine × Option Emission) : Prop where
  /-- The token goes on, and nothing is emitted. -/
  | differ (machines : Differ quote content other first.1 second.1)
      (firstSilent : first.2 = none) (secondSilent : second.2 = none)
  /-- The token ends. If it was the head of a rule, the string is in the emitted text. -/
  | agree (machines : Agree first.1 second.1)
      (texts : Exchanged quote content other (first.2.bind Emission.text?)
        (second.2.bind Emission.text?))

namespace Differ

variable {quote : Char} {content other : List Char} {first second : Machine}

/-- A character that is read by what it means in the innermost context goes on with the token
    or ends it, for both machines. -/
theorem together {front back : List Char} {c : Char} (isQuote : isQuote quote = true)
    (firstToken : first.token = holding quote front (back ++ [c]) content)
    (secondToken : second.token = holding quote front (back ++ [c]) other)
    {answer otherAnswer : Machine × Option Emission}
    (together : Together first second answer otherAnswer) :
    Answers quote content other answer otherAnswer := by
  have head (machine : Machine) (held : List Char)
      (token : machine.token = holding quote front (back ++ [c]) held) :
      machine.head.text = holding quote (trimStart front) (trimEnd back) held := by
    rw [Machine.head, token, ← holding_concat, List.dropLast_concat]
    exact trim_holding isQuote front back held
  cases together with
  | goesOn stack unquoted =>
    exact .differ (.plain front (back ++ [c]) unquoted rfl firstToken secondToken) rfl rfl
  | skips rule stack => exact .agree ⟨rfl, rfl⟩ (.inl rfl)
  | closes stack => exact .agree ⟨rfl, rfl⟩ (.inl rfl)
  | opens stack =>
    refine .agree ⟨rfl, rfl⟩ (.inr ⟨trimStart front, trimEnd back, ?_, ?_⟩)
    · exact congrArg some (head first content firstToken)
    · exact congrArg some (head second other secondToken)

/-- A character outside strings and comments has the same role for both machines: the token
    is not empty, and a slash in front of a star stands behind the string. -/
theorem step_unquoted {front back : List Char} (isQuote : isQuote quote = true)
    (unquoted : Context.Unquoted first.stack) (stack : first.stack = second.stack)
    (firstToken : first.token = holding quote front back content)
    (secondToken : second.token = holding quote front back other) (c : Char) :
    Answers quote content other (first.step c) (second.step c) := by
  have otherUnquoted : Context.Unquoted second.stack := stack ▸ unquoted
  have nonempty (held : List Char) : holding quote front back held ≠ [] := by
    simp [holding, literal]
  have firstTaken := take_holding firstToken c
  have secondTaken := take_holding secondToken c
  cases role first.token c with
  | quote opens =>
    rw [step_opening_quote first unquoted c opens, step_opening_quote second otherUnquoted c opens]
    refine .differ (.quoted front (back ++ [c]) c first.stack unquoted (by simp) rfl ?_ firstTaken
      secondTaken) rfl rfl
    exact congrArg (.quoted c :: ·) stack.symm
  | star before slash isStar =>
    subst isStar
    have last : first.token.getLast? = some '/' := by rw [slash, List.getLast?_concat]
    rw [firstToken, getLast?_holding_eq_slash_iff isQuote] at last
    obtain ⟨kept, rfl⟩ := List.getLast?_eq_some_iff.mp last
    rw [← holding_concat] at firstToken secondToken firstTaken secondTaken
    rw [← holding_concat, List.append_assoc] at firstTaken secondTaken
    rw [step_opening_star first unquoted _ firstToken,
      step_opening_star second otherUnquoted _ secondToken]
    refine .differ (.commented front kept [] first.stack unquoted rfl ?_ firstTaken secondTaken)
      rfl rfl
    exact congrArg (_ :: ·) stack.symm
  | boundary fresh _ =>
    rw [firstToken] at fresh
    exact absurd fresh (nonempty content)
  | plain noQuote apart _ =>
    have begun : AtRule.ofToken? (first.take c).token = AtRule.ofToken? (second.take c).token := by
      rw [firstTaken, secondTaken, ofToken?_holding isQuote, ofToken?_holding isQuote]
    have otherApart (star : c = '*') : second.token.getLast? ≠ some '/' := by
      have apart := apart star
      rw [firstToken, ne_eq, getLast?_holding_eq_slash_iff isQuote] at apart
      rwa [secondToken, ne_eq, getLast?_holding_eq_slash_iff isQuote]
    rw [step_readPlain first unquoted c noQuote apart
        (fun fresh => absurd (firstToken.symm.trans fresh) (nonempty content)),
      step_readPlain second otherUnquoted c noQuote otherApart
        (fun fresh => absurd (secondToken.symm.trans fresh) (nonempty other))]
    exact together isQuote firstTaken secondTaken
      (readPlain_together (first.take c) (second.take c) c stack begun unquoted)

/-- Machines that differ in a string answer alike to every character. -/
theorem step (differ : Differ quote content other first second) (isQuote : isQuote quote = true)
    (c : Char) : Answers quote content other (first.step c) (second.step c) := by
  cases differ with
  | plain front back unquoted stack firstToken secondToken =>
    exact step_unquoted isQuote unquoted stack firstToken secondToken c
  | quoted front back opener outer unquoted opened firstStack secondStack firstToken secondToken =>
    have escaped (machine : Machine) (held : List Char)
        (token : machine.token = holding quote front back held) :
        (machine.take c).escaped = (back.getLast? == some '\\') := by
      rw [Machine.escaped, take, List.dropLast_concat, token, holding,
        List.getLast?_append_of_ne_nil _ opened]
    have firstTaken := take_holding firstToken c
    have secondTaken := take_holding secondToken c
    rw [step_quoted first opener c outer firstStack, step_quoted second opener c outer secondStack,
      readQuoted, readQuoted, escaped first content firstToken, escaped second other secondToken]
    split
    · exact .differ (.plain front (back ++ [c]) unquoted rfl firstTaken secondTaken) rfl rfl
    · exact .differ (.quoted front (back ++ [c]) opener outer unquoted (by simp) firstStack
        secondStack firstTaken secondTaken) rfl rfl
  | commented front back inside outer unquoted firstStack secondStack firstToken secondToken =>
    rw [step_comment first _ inside outer c firstStack firstToken,
      step_comment second _ inside outer c secondStack secondToken]
    split
    · exact .differ (.plain front back unquoted rfl rfl rfl) rfl rfl
    · refine .differ (.commented front back (inside ++ [c]) outer unquoted firstStack secondStack
        ?_ ?_) rfl rfl
      · rw [take, firstToken, List.append_assoc]
        rfl
      · rw [take, secondToken, List.append_assoc]
        rfl

/-- The contexts differ in the offset of an open comment at most. -/
theorem stack_alike (differ : Differ quote content other first second) :
    first.stack.map Context.withoutOffset = second.stack.map Context.withoutOffset := by
  cases differ with
  | plain front back unquoted stack firstToken secondToken => rw [stack]
  | quoted front back opener outer unquoted opened firstStack secondStack firstToken secondToken =>
    rw [firstStack, secondStack]
  | commented front back inside outer unquoted firstStack secondStack firstToken secondToken =>
    rw [firstStack, secondStack]
    rfl

/-- Whatever follows, the texts that machines emit which differ in a string are the same but
    for that string in the first of them. -/
theorem texts_replaced (differ : Differ quote content other first second)
    (isQuote : isQuote quote = true) (text : List Char) :
    ReplacedFirst quote content other (first.texts text) (second.texts text) := by
  induction text generalizing first second with
  | nil => exact .inl rfl
  | cons c rest inductionHypothesis =>
    rw [texts_cons, texts_cons]
    cases differ.step isQuote c with
    | differ machines firstSilent secondSilent =>
      rw [firstSilent, secondSilent]
      exact inductionHypothesis machines
    | agree machines exchanged =>
      rw [(machines.run rest).2]
      rcases exchanged with same | ⟨front, back, firstText, secondText⟩
      · rw [same]
        exact .inl rfl
      · rw [firstText, secondText]
        exact .inr ⟨front, back, _, rfl, rfl⟩

end Differ

/-- Two machines that differ in a string, or no longer do. -/
def Twins (quote : Char) (content other : List Char) (first second : Machine) : Prop :=
  Differ quote content other first second ∨ Agree first second

namespace Twins

variable {quote : Char} {content other : List Char} {first second : Machine}

/-- The contexts differ in the offset of an open comment at most. -/
theorem stack_alike (twins : Twins quote content other first second) :
    first.stack.map Context.withoutOffset = second.stack.map Context.withoutOffset := by
  rcases twins with differ | agree
  · exact differ.stack_alike
  · rw [agree.stack]

/-- Twins stay twins behind every character, and it ends a prelude for both or for neither. -/
theorem step (twins : Twins quote content other first second) (isQuote : isQuote quote = true)
    (c : Char) :
    Twins quote content other (first.step c).1 (second.step c).1 ∧
      ((first.step c).2.bind Emission.text?).isSome =
        ((second.step c).2.bind Emission.text?).isSome := by
  rcases twins with differ | agree
  · cases differ.step isQuote c with
    | differ machines firstSilent secondSilent =>
      rw [firstSilent, secondSilent]
      exact ⟨.inl machines, rfl⟩
    | agree machines exchanged =>
      refine ⟨.inr machines, ?_⟩
      rcases exchanged with same | ⟨front, back, firstText, secondText⟩
      · rw [same]
      · rw [firstText, secondText]
        rfl
  · obtain ⟨machines, texts⟩ := agree.step c
    exact ⟨.inr machines, congrArg Option.isSome texts⟩

/-- Twins stay twins behind every text. -/
theorem run (twins : Twins quote content other first second) (isQuote : isQuote quote = true)
    (text : List Char) : Twins quote content other (first.run text).1 (second.run text).1 := by
  induction text generalizing first second with
  | nil => exact twins
  | cons c rest inductionHypothesis =>
    rw [run_cons, run_cons]
    exact inductionHypothesis (twins.step isQuote c).1

end Twins

/-- Strings are opaque. Outside strings and comments a string emits nothing, leaves contexts
    and boundary as they were and is put at the end of the token. Whatever two strings of the
    same quote hold, reading on behind the one and behind the other goes through the same
    contexts, up to the offsets of comments, and finds preludes at the same characters, with
    the same texts but for the string in the first of them. -/
theorem string_opacity (machine : Machine) (quote : Char) (content other : List Char)
    (unquoted : Context.Unquoted machine.stack) (quotable : Quotable quote content)
    (otherQuotable : Quotable quote other) :
    machine.run (literal quote content) =
        ({ machine with
          token := machine.token ++ literal quote content
          position := (literal quote content).foldl Position.advance machine.position }, []) ∧
      ∀ post,
        (∀ part, part <+: post →
          (machine.run (literal quote content ++ part)).1.stack.map Context.withoutOffset =
            (machine.run (literal quote other ++ part)).1.stack.map Context.withoutOffset) ∧
        (∀ before c, before ++ [c] <+: post →
          (((machine.run (literal quote content ++ before)).1.step c).2.bind
              Emission.text?).isSome =
            (((machine.run (literal quote other ++ before)).1.step c).2.bind
              Emission.text?).isSome) ∧
        ReplacedFirst quote content other (machine.texts (literal quote content ++ post))
          (machine.texts (literal quote other ++ post)) := by
  have passed := machine.run_literal unquoted quotable
  have otherPassed := machine.run_literal unquoted otherQuotable
  have differ : Differ quote content other (machine.run (literal quote content)).1
      (machine.run (literal quote other)).1 := by
    rw [passed, otherPassed]
    exact .plain machine.token [] unquoted rfl (List.append_nil _).symm (List.append_nil _).symm
  have twins (part : List Char) : Twins quote content other
      (machine.run (literal quote content ++ part)).1
      (machine.run (literal quote other ++ part)).1 := by
    rw [run_append, run_append]
    exact Twins.run (.inl differ) quotable.isQuote part
  have silent : machine.texts (literal quote content) = [] ∧
      machine.texts (literal quote other) = [] := by
    rw [texts, texts, passed, otherPassed]
    exact ⟨rfl, rfl⟩
  refine ⟨passed, fun post => ⟨?_, ?_, ?_⟩⟩
  · intro part _
    exact (twins part).stack_alike
  · intro before c _
    exact ((twins before).step quotable.isQuote c).2
  · rw [texts_append, texts_append, silent.1, silent.2]
    exact differ.texts_replaced quotable.isQuote post

/-- A string in the head of a rule that holds a keyword, a comment opener, braces and an
    escaped quote, against one that holds a single character of three bytes. A comment behind
    the string ends at an offset that depends on it. -/
theorem string_opacity_in_head :
    Quotable '\x22' "@media/*\x7b\x7d\\\x22;".toList ∧ Quotable '\x22' "€".toList ∧
      ReplacedFirst '\x22' "@media/*\x7b\x7d\\\x22;".toList "€".toList
        (Machine.texts { file := "a.css" }
          (literal '\x22' "@media/*\x7b\x7d\\\x22;".toList ++ "b/*\x22*/ \x7bc\x7d.d\x7b".toList))
        ["\x22€\x22b".toList, ".d".toList] := by
  have quotable : Quotable '\x22' "@media/*\x7b\x7d\\\x22;".toList := by decide
  have otherQuotable : Quotable '\x22' "€".toList := by decide
  have replaced := ((string_opacity { file := "a.css" } '\x22' _ _ trivial quotable
    otherQuotable).2 "b/*\x22*/ \x7bc\x7d.d\x7b".toList).2.2
  have texts : Machine.texts { file := "a.css" }
      (literal '\x22' "€".toList ++ "b/*\x22*/ \x7bc\x7d.d\x7b".toList) =
        ["\x22€\x22b".toList, ".d".toList] := by decide
  rw [texts] at replaced
  exact ⟨quotable, otherQuotable, replaced⟩

end Machine

end SelectorLint.Stylesheet
