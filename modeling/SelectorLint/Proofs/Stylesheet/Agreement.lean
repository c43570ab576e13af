import SelectorLint.Proofs.Stylesheet.Runs

/-!
# Machines in step

What a machine does with a character depends on its contexts and its token only. Two machines
that agree on both stay in agreement behind every text and emit preludes with the same texts;
the file and the positions, and so the spans, may differ.

Where a character is read by what it means in the innermost context, less is needed: of the
tokens it matters only which at-rule they begin.
-/

namespace SelectorLint.Stylesheet

open Text

/-- The text of the prelude that an emission carries, if any. -/
def Emission.text? (emission : Emission) : Option (List Char) := emission.prelude?.map (·.text)

namespace Machine

/-- The texts of the preludes that reading a text emits, in order. -/
def texts (machine : Machine) (text : List Char) : List (List Char) :=
  (machine.run text).2.filterMap Emission.text?

/-- The text emitted by the first character comes in front of those emitted by the others. -/
theorem texts_cons (machine : Machine) (c : Char) (rest : List Char) :
    machine.texts (c :: rest) =
      ((machine.step c).2.bind Emission.text?).toList ++ (machine.step c).1.texts rest := by
  rw [texts, run_cons, List.filterMap_append]
  cases (machine.step c).2 with
  | none => rfl
  | some emission =>
    rw [Option.toList_some, List.filterMap_cons, Option.bind_some]
    cases emission.text? <;> rfl

/-- The texts emitted by two texts, the second read where the first ends. -/
theorem texts_append (machine : Machine) (first second : List Char) :
    machine.texts (first ++ second) =
      machine.texts first ++ (machine.run first).1.texts second := by
  rw [texts, run_append, List.filterMap_append]
  rfl

/-- What two machines do together with a character that is read by what it means in the
    innermost context. -/
inductive Together (first second : Machine) :
    Machine × Option Emission → Machine × Option Emission → Prop where
  /-- Both tokens go on. -/
  | goesOn (stack : List Context) (unquoted : Context.Unquoted stack) :
      Together first second ({ first with stack }, none) ({ second with stack }, none)
  /-- Both tokens end an at-rule. -/
  | skips (rule : AtRule) (stack : List Context) :
      Together first second ({ first with stack }.cut, some (.skipped rule first.token))
        ({ second with stack }.cut, some (.skipped rule second.token))
  /-- Both tokens end the body of a rule. -/
  | closes (stack : List Context) :
      Together first second ({ first with stack }.cut, none) ({ second with stack }.cut, none)
  /-- Both tokens end a prelude. -/
  | opens (stack : List Context) :
      Together first second ({ first with stack }.cut, some (.opened first.head))
        ({ second with stack }.cut, some (.opened second.head))

/-- Two machines in the same contexts, with tokens that begin the same at-rule if any, do the
    same with a character that is read by what it means in the innermost context. -/
theorem readPlain_together (first second : Machine) (c : Char)
    (stack : first.stack = second.stack)
    (begun : AtRule.ofToken? first.token = AtRule.ofToken? second.token)
    (unquoted : Context.Unquoted first.stack) :
    Together first second (first.readPlain c) (second.readPlain c) := by
  obtain ⟨firstFile, contexts, firstToken, firstPosition, firstStart⟩ := first
  obtain ⟨secondFile, _, secondToken, secondPosition, secondStart⟩ := second
  dsimp only at stack begun unquoted
  subst stack
  cases contexts with
  | nil =>
    simp only [readPlain, ← begun]
    cases AtRule.ofToken? firstToken with
    | some rule => exact .goesOn [.atRule rule] trivial
    | none =>
      by_cases brace : c = '{'
      · simp only [if_pos brace]
        exact .opens [.ruleBody]
      · simp only [if_neg brace]
        exact .goesOn [] trivial
  | cons context outer =>
    cases context with
    | quoted quote => exact unquoted.elim
    | comment start => exact unquoted.elim
    | atRule rule =>
      simp only [readPlain]
      cases rule.advance? c with
      | some next => exact .goesOn (.atRule next :: outer) trivial
      | none => exact .skips rule outer
    | ruleBody =>
      simp only [readPlain, ← begun]
      cases AtRule.ofToken? firstToken with
      | some rule => exact .goesOn (.atRule rule :: .ruleBody :: outer) trivial
      | none =>
        by_cases brace : c = '}'
        · simp only [if_pos brace]
          exact .closes outer
        · simp only [if_neg brace]
          exact .goesOn (.ruleBody :: outer) trivial

/-- Two machines in the same contexts with the same token. -/
structure Agree (first second : Machine) : Prop where
  /-- The contexts are the same. -/
  stack : first.stack = second.stack
  /-- The token is the same. -/
  token : first.token = second.token

/-- Two answers to a character that agree: the machines do, and the same text was emitted if
    any. -/
structure AgreeOn (first second : Machine × Option Emission) : Prop where
  /-- The machines agree. -/
  machines : Agree first.1 second.1
  /-- The emitted texts are the same. -/
  texts : first.2.bind Emission.text? = second.2.bind Emission.text?

namespace Agree

variable {first second : Machine}

/-- Taking a character keeps machines in agreement. -/
theorem take (agree : Agree first second) (c : Char) : Agree (first.take c) (second.take c) where
  stack := agree.stack
  token := congrArg (· ++ [c]) agree.token

/-- Machines in agreement read a character of a string alike. -/
theorem readQuoted (agree : Agree first second) (quote c : Char) (outer : List Context) :
    Agree (first.readQuoted quote c outer) (second.readQuoted quote c outer) := by
  have escaped : first.escaped = second.escaped := by
    rw [Machine.escaped, Machine.escaped, agree.token]
  rw [Machine.readQuoted, Machine.readQuoted, escaped]
  split
  · exact ⟨rfl, agree.token⟩
  · exact agree

/-- Machines in agreement read a character of a comment alike. -/
theorem readComment (agree : Agree first second) (start : Nat) (c : Char)
    (outer : List Context) :
    Agree (first.readComment start c outer) (second.readComment start c outer) := by
  have comment : first.comment? start = second.comment? start := by
    rw [comment?, comment?, agree.token]
  rw [Machine.readComment, Machine.readComment, comment]
  split
  · split
    · split
      · exact ⟨rfl, rfl⟩
      · exact agree
    · exact agree
  · exact agree

/-- Machines in agreement that do the same stay in agreement. -/
theorem together (agree : Agree first second) {answer other : Machine × Option Emission}
    (together : Together first second answer other) : AgreeOn answer other := by
  have head : first.head.text = second.head.text := by
    rw [Machine.head, Machine.head, agree.token]
  cases together with
  | goesOn stack _ => exact ⟨⟨rfl, agree.token⟩, rfl⟩
  | skips rule stack => exact ⟨⟨rfl, rfl⟩, rfl⟩
  | closes stack => exact ⟨⟨rfl, rfl⟩, rfl⟩
  | opens stack => exact ⟨⟨rfl, rfl⟩, congrArg some head⟩

/-- Machines in agreement read a character outside strings and comments alike. -/
theorem step_unquoted (agree : Agree first second) (unquoted : Context.Unquoted first.stack)
    (c : Char) : AgreeOn (first.step c) (second.step c) := by
  have otherUnquoted : Context.Unquoted second.stack := agree.stack ▸ unquoted
  have enter (context : Context) : AgreeOn ((first.take c).enter context, none)
      ((second.take c).enter context, none) :=
    ⟨⟨congrArg (context :: ·) agree.stack, (agree.take c).token⟩, rfl⟩
  cases role first.token c with
  | quote isQuote =>
    rw [step_opening_quote first unquoted c isQuote,
      step_opening_quote second otherUnquoted c isQuote]
    exact enter (.quoted c)
  | star front slash isStar =>
    subst isStar
    rw [step_opening_star first unquoted front slash,
      step_opening_star second otherUnquoted front (agree.token ▸ slash)]
    exact enter (.comment (byteLength front))
  | boundary fresh isBoundary =>
    rw [step_boundary first unquoted c fresh isBoundary,
      step_boundary second otherUnquoted c (agree.token ▸ fresh) isBoundary]
    exact ⟨⟨agree.stack, rfl⟩, rfl⟩
  | plain noQuote apart noBoundary =>
    rw [step_readPlain first unquoted c noQuote apart noBoundary,
      step_readPlain second otherUnquoted c noQuote (agree.token ▸ apart)
        (agree.token ▸ noBoundary)]
    exact (agree.take c).together (readPlain_together (first.take c) (second.take c) c agree.stack
      (congrArg _ (agree.take c).token) unquoted)

/-- Machines in agreement stay in agreement behind every character and emit the same text, if
    they emit one. -/
theorem step (agree : Agree first second) (c : Char) :
    AgreeOn (first.step c) (second.step c) := by
  rcases Context.unquoted_or first.stack with
    unquoted | ⟨quote, outer, inString⟩ | ⟨start, outer, inComment⟩
  · exact agree.step_unquoted unquoted c
  · rw [step_quoted first quote c outer inString,
      step_quoted second quote c outer (agree.stack ▸ inString)]
    exact ⟨(agree.take c).readQuoted quote c outer, rfl⟩
  · rw [step_commented first start c outer inComment,
      step_commented second start c outer (agree.stack ▸ inComment)]
    exact ⟨(agree.take c).readComment start c outer, rfl⟩

/-- Machines in agreement stay in agreement behind every text and emit the same texts. -/
theorem run (agree : Agree first second) (text : List Char) :
    Agree (first.run text).1 (second.run text).1 ∧ first.texts text = second.texts text := by
  induction text generalizing first second with
  | nil => exact ⟨agree, rfl⟩
  | cons c rest inductionHypothesis =>
    obtain ⟨machines, texts⟩ := agree.step c
    obtain ⟨behind, restTexts⟩ := inductionHypothesis machines
    rw [run_cons, run_cons, texts_cons, texts_cons, texts, restTexts]
    exact ⟨behind, rfl⟩

end Agree

end Machine

end SelectorLint.Stylesheet
