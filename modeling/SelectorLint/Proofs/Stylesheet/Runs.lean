import SelectorLint.Proofs.Stylesheet.Quotation
import SelectorLint.Stylesheet.Machine

/-!
# Runs of the machine

A run over two texts is a run over the first and then, from the machine it leaves,
a run over the second; the emissions come one behind the other. One step has an
equation in a string and one in a comment. Outside both, a character has one of four
roles, by what it is and by the token in front of it, and there is an equation for each.
Later modules read texts through these equations and do not open `step` again.
-/

namespace SelectorLint.Stylesheet

open Text

/-- A stack whose innermost context is neither a string nor a comment. -/
def Context.Unquoted : List Context → Prop
  | .quoted _ :: _ => False
  | .comment _ :: _ => False
  | _ => True

/-- Outside strings and comments, or in a string, or in a comment. -/
theorem Context.unquoted_or (stack : List Context) :
    Unquoted stack ∨ (∃ quote outer, stack = .quoted quote :: outer) ∨
      ∃ start outer, stack = .comment start :: outer := by
  cases stack with
  | nil => exact .inl trivial
  | cons context outer =>
    cases context with
    | quoted quote => exact .inr (.inl ⟨quote, outer, rfl⟩)
    | comment start => exact .inr (.inr ⟨start, outer, rfl⟩)
    | atRule rule => exact .inl trivial
    | ruleBody => exact .inl trivial

/-- Two characters end a text exactly when one is its last and the other stands in front. -/
theorem pair_suffix_concat_iff (first second c : Char) (text : List Char) :
    [first, second] <:+ text ++ [c] ↔ second = c ∧ text.getLast? = some first := by
  have pair : [first, second] = [first] ++ [second] := rfl
  rw [List.suffix_concat_iff, pair]
  constructor
  · rintro (empty | ⟨front, whole, isSuffix⟩)
    · exact absurd empty (by simp)
    · obtain ⟨rfl, same⟩ := List.append_inj' whole rfl
      obtain ⟨rest, rfl⟩ := isSuffix
      exact ⟨List.singleton_inj.mp same, List.getLast?_concat⟩
  · rintro ⟨rfl, last⟩
    obtain ⟨rest, rfl⟩ := List.getLast?_eq_some_iff.mp last
    exact .inr ⟨[first], rfl, List.suffix_append rest [first]⟩

namespace Machine

/-- What was emitted before a text stays behind what the text emits. -/
theorem foldl_feed (machine : Machine) (emitted : List Emission) (text : List Char) :
    text.foldl feed (machine, emitted) =
      ((text.foldl feed (machine, [])).1, (text.foldl feed (machine, [])).2 ++ emitted) := by
  induction text generalizing machine emitted with
  | nil => rfl
  | cons c rest inductionHypothesis =>
    rcases stepped : machine.step c with ⟨next, none | emission⟩
    · have plain (before : List Emission) : feed (machine, before) c = (next, before) := by
        simp only [feed, stepped]
      rw [List.foldl_cons, List.foldl_cons, plain, plain]
      exact inductionHypothesis next emitted
    · have emits (before : List Emission) :
          feed (machine, before) c = (next, emission :: before) := by
        simp only [feed, stepped]
      rw [List.foldl_cons, List.foldl_cons, emits, emits,
        inductionHypothesis next (emission :: emitted), inductionHypothesis next [emission]]
      simp only [List.append_assoc, List.cons_append, List.nil_append]

/-- A run over nothing leaves the machine as it is and emits nothing. -/
@[simp]
theorem run_nil (machine : Machine) : machine.run [] = (machine, []) := rfl

/-- A run over one character is its step. -/
theorem run_singleton (machine : Machine) (c : Char) :
    machine.run [c] = ((machine.step c).1, (machine.step c).2.toList) := by
  rcases stepped : machine.step c with ⟨next, none | emission⟩ <;>
    simp only [run, List.foldl_cons, List.foldl_nil, feed, stepped, List.reverse_nil,
      List.reverse_cons, List.nil_append, Option.toList]

/-- A run over two texts continues from the machine that the first text leaves. -/
theorem run_append (machine : Machine) (first second : List Char) :
    machine.run (first ++ second) =
      (((machine.run first).1.run second).1,
        (machine.run first).2 ++ ((machine.run first).1.run second).2) := by
  simp only [run, List.foldl_append]
  rw [foldl_feed (first.foldl feed (machine, [])).1 (first.foldl feed (machine, [])).2 second]
  simp only [List.reverse_append]

/-- A run over a text with a first character continues from the machine behind it. -/
theorem run_cons (machine : Machine) (c : Char) (rest : List Char) :
    machine.run (c :: rest) =
      (((machine.step c).1.run rest).1,
        (machine.step c).2.toList ++ ((machine.step c).1.run rest).2) := by
  have split : c :: rest = [c] ++ rest := rfl
  rw [split, run_append, run_singleton]

/-- In a string, only the end of that string is looked for. -/
theorem step_quoted (machine : Machine) (quote c : Char) (outer : List Context)
    (inside : machine.stack = .quoted quote :: outer) :
    machine.step c = ((machine.take c).readQuoted quote c outer, none) := by
  simp only [step, take, inside]

/-- In a comment, only the end of that comment is looked for. -/
theorem step_commented (machine : Machine) (start : Nat) (c : Char) (outer : List Context)
    (inside : machine.stack = .comment start :: outer) :
    machine.step c = ((machine.take c).readComment start c outer, none) := by
  simp only [step, take, inside]

/-- The comment that ends a token, by the byte offset of its opener. -/
theorem comment?_of_token (machine : Machine) (front inside : List Char)
    (token : machine.token = front ++ '/' :: '*' :: inside) :
    machine.comment? (byteLength front) = some (front, inside) := by
  rw [comment?, token, splitAtByte?_append]
  rfl

/-- The closer of a comment is looked for in what stands behind the opener. With the closer
    the token is again what it was in front of the comment. -/
theorem step_comment (machine : Machine) (front inside : List Char) (outer : List Context)
    (c : Char) (stack : machine.stack = .comment (byteLength front) :: outer)
    (token : machine.token = front ++ '/' :: '*' :: inside) :
    machine.step c =
      (if ['*', '/'] <:+ inside ++ [c] then { machine.take c with token := front, stack := outer }
        else machine.take c, none) := by
  have body : (machine.take c).comment? (byteLength front) = some (front, inside ++ [c]) := by
    apply comment?_of_token
    rw [take, token, List.append_assoc]
    rfl
  rw [step_commented machine _ c outer stack, readComment, body]
  simp only [List.isSuffixOf_iff_suffix]
  by_cases closer : ['*', '/'] <:+ inside ++ [c]
  · have slash : c = '/' := ((pair_suffix_concat_iff '*' '/' c inside).mp closer).1.symm
    rw [if_pos slash, if_pos closer]
  · rw [if_neg closer, ite_self]

/-- Outside strings and comments a character is taken and then read. -/
theorem step_unquoted (machine : Machine) (c : Char) (unquoted : Context.Unquoted machine.stack) :
    machine.step c = (machine.take c).readOpen c := by
  cases shape : machine.stack with
  | nil => simp only [step, take, shape]
  | cons context outer =>
    rw [shape] at unquoted
    cases context with
    | quoted quote => exact unquoted.elim
    | comment start => exact unquoted.elim
    | atRule rule => simp only [step, take, shape]
    | ruleBody => simp only [step, take, shape]

/-- What a character outside strings and comments can be, behind a token. -/
inductive Role (token : List Char) (c : Char) : Prop where
  /-- A quote opens a string. -/
  | quote (isQuote : isQuote c = true)
  /-- A star behind a slash opens a comment. -/
  | star (front : List Char) (slash : token = front ++ ['/']) (isStar : c = '*')
  /-- A blank or a closing brace that is all of a token is a boundary by itself. -/
  | boundary (fresh : token = []) (isBoundary : isBlank c = true ∨ c = '}')
  /-- Any other character is read by what it means in the innermost context. -/
  | plain (noQuote : isQuote c = false) (apart : c = '*' → token.getLast? ≠ some '/')
      (noBoundary : token = [] → isBlank c = false ∧ c ≠ '}')

/-- Every character has a role. -/
theorem role (token : List Char) (c : Char) : Role token c := by
  by_cases isQuote : isQuote c = true
  · exact .quote isQuote
  by_cases opener : c = '*' ∧ token.getLast? = some '/'
  · obtain ⟨front, slash⟩ := List.getLast?_eq_some_iff.mp opener.2
    exact .star front slash opener.1
  by_cases boundary : token = [] ∧ (isBlank c = true ∨ c = '}')
  · exact .boundary boundary.1 boundary.2
  · refine .plain (by simpa using isQuote) (fun star slash => opener ⟨star, slash⟩) ?_
    intro fresh
    have neither := not_or.mp fun isBoundary => boundary ⟨fresh, isBoundary⟩
    exact ⟨by simpa using neither.1, neither.2⟩

section Roles

variable (machine : Machine) (unquoted : Context.Unquoted machine.stack)

include unquoted

/-- A quote opens a string. -/
theorem step_opening_quote (c : Char) (isQuote : isQuote c = true) :
    machine.step c = ((machine.take c).enter (.quoted c), none) := by
  have quote : c = '\x22' ∨ c = '\x27' := by
    simpa only [Stylesheet.isQuote, decide_eq_true_eq] using isQuote
  rw [step_unquoted machine c unquoted, readOpen, if_pos quote]

/-- A star behind a slash opens a comment, whose offset is that of the slash. -/
theorem step_opening_star (front : List Char) (slash : machine.token = front ++ ['/']) :
    machine.step '*' = ((machine.take '*').enter (.comment (byteLength front)), none) := by
  have opener : ['/', '*'].isSuffixOf (machine.take '*').token = true := by
    rw [List.isSuffixOf_iff_suffix, take, slash, pair_suffix_concat_iff]
    exact ⟨rfl, List.getLast?_concat⟩
  have start : byteLength (machine.take '*').token - 2 = byteLength front := by
    have oneByte : byteLength ['/'] = 1 ∧ byteLength ['*'] = 1 := by decide
    rw [take, slash, byteLength_append, byteLength_append, oneByte.1, oneByte.2]
    omega
  rw [step_unquoted machine '*' unquoted, readOpen, if_neg (by decide), if_pos ⟨rfl, opener⟩,
    start]

/-- A blank or a closing brace that is all of a token is passed over. -/
theorem step_boundary (c : Char) (fresh : machine.token = [])
    (isBoundary : isBlank c = true ∨ c = '}') :
    machine.step c = ((machine.take c).cut, none) := by
  have token : (machine.take c).token = [c] := by
    rw [take, fresh]
    rfl
  have noQuote : ¬(c = '\x22' ∨ c = '\x27') := by
    rintro (rfl | rfl) <;> exact absurd isBoundary (by decide)
  have noOpener : ¬(c = '*' ∧ ['/', '*'].isSuffixOf (machine.take c).token = true) := by
    rintro ⟨rfl, _⟩
    exact absurd isBoundary (by decide)
  rw [step_unquoted machine c unquoted, readOpen, if_neg noQuote, if_neg noOpener]
  rcases isBoundary with blank | rfl
  · rw [if_pos ⟨blank, token⟩]
  · rw [if_pos token, ite_self]

/-- Any other character is read by what it means in the innermost context. -/
theorem step_readPlain (c : Char) (noQuote : isQuote c = false)
    (apart : c = '*' → machine.token.getLast? ≠ some '/')
    (noBoundary : machine.token = [] → isBlank c = false ∧ c ≠ '}') :
    machine.step c = (machine.take c).readPlain c := by
  have notQuoted : ¬(c = '\x22' ∨ c = '\x27') := by
    simpa only [isQuote, decide_eq_false_iff_not] using noQuote
  have noOpener : ¬(c = '*' ∧ ['/', '*'].isSuffixOf (machine.take c).token = true) := by
    rintro ⟨rfl, opener⟩
    rw [List.isSuffixOf_iff_suffix, take, pair_suffix_concat_iff] at opener
    exact apart rfl opener.2
  have alone (single : (machine.take c).token = [c]) : isBlank c = false ∧ c ≠ '}' :=
    noBoundary (List.append_left_eq_self.mp single)
  have noBlank : ¬(isBlank c = true ∧ (machine.take c).token = [c]) := by
    rintro ⟨blank, single⟩
    exact absurd (alone single).1 (by simp [blank])
  have noBrace : (machine.take c).token ≠ ['}'] := by
    intro single
    have brace : c = '}' := by
      have last := congrArg List.getLast? single
      simpa [take] using last
    subst brace
    exact (alone single).2 rfl
  rw [step_unquoted machine c unquoted, readOpen, if_neg notQuoted, if_neg noOpener,
    if_neg noBlank, if_neg noBrace]

end Roles

end Machine

end SelectorLint.Stylesheet
