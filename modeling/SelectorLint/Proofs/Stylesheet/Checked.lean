import SelectorLint.Proofs.Stylesheet.Coherence

/-!
# Reading with checks

The token of a machine is a text, while a comment is remembered by a byte offset into it, and a
token is cut at offsets that are differences of lengths. An offset may lie inside a character or
beyond the end, a difference may go below zero, and an at-rule can be ended only where there is one.
A machine answers every such case with something. Here the same steps are taken with checks: a cut
succeeds only between two characters, a difference only down to zero, and the end of an at-rule only
in an at-rule; whatever else happens is a fault.

Main statement: from a fresh machine, reading with checks meets no fault on any text, and it reads
what the machine reads. An offset is kept over many characters before it is used; that it still
points at the opener of its comment is part of the coherence of contexts and token.
-/

namespace SelectorLint.Text

/-- Cutting at an offset gives the two parts of the text whose first has that length. -/
theorem splitAtByte?_eq_some_iff {offset : Nat} {text front back : List Char} :
    splitAtByte? offset text = some (front, back) ↔
      text = front ++ back ∧ byteLength front = offset := by
  constructor
  · intro parts
    induction offset, text using splitAtByte?.induct generalizing front back with
    | case1 text => simp_all [splitAtByte?, byteLength]
    | case2 offset => simp [splitAtByte?] at parts
    | case3 offset c rest fits inductionHypothesis =>
      rw [splitAtByte?, if_pos fits, Option.map_eq_some_iff] at parts
      obtain ⟨⟨before, behind⟩, further, same⟩ := parts
      obtain ⟨rfl, rfl⟩ := Prod.mk.inj same
      obtain ⟨rfl, length⟩ := inductionHypothesis further
      refine ⟨rfl, ?_⟩
      rw [byteLength, length]
      omega
    | case4 offset c rest tooLong => simp [splitAtByte?, tooLong] at parts
  · rintro ⟨rfl, rfl⟩
    exact splitAtByte?_append front back

/-- The length in bytes is that of the encoded text. -/
theorem byteLength_eq_utf8ByteSize (text : List Char) :
    byteLength text = (String.ofList text).utf8ByteSize := by
  induction text with
  | nil => rfl
  | cons c rest inductionHypothesis =>
    rw [byteLength, inductionHypothesis]
    simp

/-- Only the empty text has no bytes. -/
theorem byteLength_eq_zero_iff {text : List Char} : byteLength text = 0 ↔ text = [] := by
  cases text with
  | nil => exact iff_of_true rfl rfl
  | cons c rest =>
    have positive := Char.utf8Size_pos c
    refine iff_of_false ?_ (List.cons_ne_nil c rest)
    rw [byteLength]
    omega

end SelectorLint.Text

namespace SelectorLint.Stylesheet

open Text

/-- What reading with checks can run into. -/
inductive Fault where
  /-- A byte offset inside a character of a text or beyond its end. -/
  | offset (offset : Nat) (text : List Char)
  /-- A difference below zero. -/
  | difference (total part : Nat)
  /-- The end of an at-rule where there is none. -/
  | noAtRule
  deriving DecidableEq, Repr

/-- In a comment, the token of a coherent machine has the opener at the offset of the comment. -/
theorem Machine.Coherent.exists_comment {machine : Machine} {start : Nat} {outer : List Context}
    (coherent : machine.Coherent) (inside : machine.stack = .comment start :: outer) :
    ∃ front rest, start = byteLength front ∧ machine.token = front ++ '/' :: '*' :: rest := by
  cases coherent with
  | uncommented rule around stop between fits stack =>
    cases opened : (Quotation.after machine.token).quote with
    | some quote =>
      rw [stack, Quotation.contexts_of_quote opened] at inside
      cases inside
    | none =>
      have closed : Closed machine.token := opened
      have unquoted := between.unquoted_within rule
      rw [stack, closed.contexts, List.nil_append] at inside
      rw [inside] at unquoted
      exact unquoted.elim
  | commented rule around stop front rest between fits closed unended token stack =>
    rw [stack] at inside
    obtain ⟨same, _⟩ := List.cons.inj inside
    exact ⟨front, rest, (Context.comment.inj same).symm, token⟩

namespace Checked

/-! ## Checks -/

/-- The parts of a text before and after a byte offset, which must lie between two characters. -/
def cutAt (offset : Nat) (text : List Char) : Except Fault (List Char × List Char) :=
  match splitAtByte? offset text with
  | some parts => .ok parts
  | none => .error (.offset offset text)

/-- A difference, which must not go below zero. -/
def difference (total part : Nat) : Except Fault Nat :=
  if part ≤ total then .ok (total - part) else .error (.difference total part)

/-- A text without its last bytes. -/
def withoutLast (bytes : Nat) (text : List Char) : Except Fault (List Char) := do
  let stop ← difference (byteLength text) bytes
  let (front, _) ← cutAt stop text
  return front

/-- A cut succeeds exactly at the boundaries between the characters of the encoded text. -/
theorem exists_cutAt_iff_isValid (offset : Nat) (text : List Char) :
    (∃ parts, cutAt offset text = .ok parts) ↔
      String.Pos.Raw.IsValid (String.ofList text) ⟨offset⟩ := by
  have cut (parts : List Char × List Char) : cutAt offset text = .ok parts ↔
      text = parts.1 ++ parts.2 ∧ byteLength parts.1 = offset := by
    rw [← splitAtByte?_eq_some_iff, cutAt]
    cases splitAtByte? offset text <;> simp
  rw [String.Pos.Raw.isValid_iff_exists_append]
  constructor
  · rintro ⟨⟨front, back⟩, isCut⟩
    obtain ⟨rfl, rfl⟩ := (cut _).mp isCut
    refine ⟨String.ofList front, String.ofList back, String.ofList_append, ?_⟩
    rw [byteLength_eq_utf8ByteSize]
    rfl
  · rintro ⟨front, back, whole, isEnd⟩
    refine ⟨(front.toList, back.toList), (cut _).mpr ⟨?_, ?_⟩⟩
    · rw [← String.toList_append, ← whole, String.toList_ofList]
    · rw [byteLength_eq_utf8ByteSize, String.ofList_toList]
      exact congrArg String.Pos.Raw.byteIdx isEnd.symm

/-! ## The steps of a machine, with checks -/

/-- Whether the last character of the token, which is `c`, follows a backslash. -/
def escaped (machine : Machine) (c : Char) : Except Fault Bool := do
  let front ← withoutLast c.utf8Size machine.token
  return front.getLast? == some '\\'

/-- Reads a character of a string. -/
def readQuoted (machine : Machine) (quote c : Char) (outer : List Context) :
    Except Fault Machine := do
  if c = quote then
    if ← escaped machine c then return machine else return { machine with stack := outer }
  else return machine

/-- Reads a character of a comment. The closer is looked for behind the two bytes of the opener. -/
def readComment (machine : Machine) (start : Nat) (outer : List Context) :
    Except Fault Machine := do
  let (_, body) ← cutAt (start + 2) machine.token
  if ['*', '/'].isSuffixOf body then
    let (before, _) ← cutAt start machine.token
    return { machine with token := before, stack := outer }
  else return machine

/-- Leaves the at-rule that the machine is in. -/
def endAtRule (machine : Machine) : Except Fault (Machine × Option Emission) :=
  match machine.stack with
  | .atRule rule :: outer =>
    .ok ({ machine with stack := outer }.cut, some (.skipped rule machine.token))
  | _ => .error .noAtRule

/-- Ends the prelude in front of the brace just read and goes into the body of its rule. -/
def openRuleBody (machine : Machine) : Except Fault (Machine × Option Emission) := do
  let text ← withoutLast 1 machine.token
  return ((machine.enter .ruleBody).cut, some (.opened
    { text := trim text
      span := ⟨machine.file, machine.tokenStart, machine.position.beforeBrace⟩ }))

/-- Reads a character by what it means in the innermost context. -/
def readPlain (machine : Machine) (c : Char) : Except Fault (Machine × Option Emission) :=
  match machine.stack with
  | .atRule rule :: outer =>
    match rule.advance? c with
    | some rule => .ok ({ machine with stack := .atRule rule :: outer }, none)
    | none => endAtRule machine
  | .ruleBody :: outer =>
    match AtRule.ofToken? machine.token with
    | some rule => .ok (machine.enter (.atRule rule), none)
    | none =>
      .ok (if c = '}' then ({ machine with stack := outer }.cut, none) else (machine, none))
  | [] =>
    match AtRule.ofToken? machine.token with
    | some rule => .ok (machine.enter (.atRule rule), none)
    | none => if c = '{' then openRuleBody machine else .ok (machine, none)
  | _ => .ok (machine, none)

/-- Reads a character outside strings and comments. Lengths in bytes decide whether a blank is all
    of the token and where the opener of a comment stands. -/
def readOpen (machine : Machine) (c : Char) : Except Fault (Machine × Option Emission) :=
  if c = '\x22' ∨ c = '\x27' then .ok (machine.enter (.quoted c), none)
  else if ['/', '*'].isSuffixOf machine.token then do
    let start ← difference (byteLength machine.token) 2
    return (machine.enter (.comment start), none)
  else if isBlank c ∧ byteLength machine.token = c.utf8Size then .ok (machine.cut, none)
  else if machine.token = ['}'] then .ok (machine.cut, none)
  else readPlain machine c

/-- Reads one character. -/
def step (machine : Machine) (c : Char) : Except Fault (Machine × Option Emission) :=
  let machine := machine.take c
  match machine.stack with
  | .quoted quote :: outer => (readQuoted machine quote c outer).map (·, none)
  | .comment start :: outer => (readComment machine start outer).map (·, none)
  | _ => readOpen machine c

/-- Reads a text; the first fault ends the reading. -/
def run (machine : Machine) : List Char → Except Fault (Machine × List Emission)
  | [] => .ok (machine, [])
  | c :: rest => do
    let first ← step machine c
    let further ← run first.1 rest
    return (further.1, first.2.toList ++ further.2)

/-! ## No check fails -/

/-- Cutting behind a front part of the text does not fault: that offset is a character boundary. -/
theorem cutAt_append (front back : List Char) :
    cutAt (byteLength front) (front ++ back) = pure (front, back) := by
  rw [cutAt, splitAtByte?_append]
  rfl

/-- Taking off what is no greater does not underflow. -/
theorem difference_of_le {total part : Nat} (fits : part ≤ total) :
    difference total part = pure (total - part) := if_pos fits

/-- A token without its last character. -/
theorem withoutLast_concat (front : List Char) (c : Char) :
    withoutLast c.utf8Size (front ++ [c]) = pure front := by
  have length : byteLength (front ++ [c]) = byteLength front + c.utf8Size :=
    byteLength_append front [c]
  rw [withoutLast, length, difference_of_le (Nat.le_add_left _ _), pure_bind, Nat.add_sub_cancel,
    cutAt_append, pure_bind]

/-- In a string the last character is dropped, whatever its width. -/
theorem readQuoted_take (machine : Machine) (quote c : Char) (outer : List Context) :
    readQuoted (machine.take c) quote c outer =
      pure ((machine.take c).readQuoted quote c outer) := by
  have last : escaped (machine.take c) c = pure (machine.take c).escaped := by
    rw [escaped, Machine.take, withoutLast_concat, pure_bind, Machine.escaped,
      List.dropLast_concat]
  rw [readQuoted, Machine.readQuoted, last, pure_bind]
  by_cases isQuote : c = quote
  · cases (machine.take c).escaped <;> simp [isQuote]
  · simp [isQuote]

/-- In a comment the offset of its opener and the place behind the opener lie between characters. -/
theorem readComment_take (machine : Machine) (front inside : List Char) (c : Char)
    (outer : List Context) (stack : machine.stack = .comment (byteLength front) :: outer)
    (token : machine.token = front ++ '/' :: '*' :: inside) :
    (readComment (machine.take c) (byteLength front) outer).map (·, none) =
      pure (machine.step c) := by
  have taken : (machine.take c).token = front ++ ['/', '*'] ++ (inside ++ [c]) := by
    rw [Machine.take, token]
    simp
  have atOpener : cutAt (byteLength front) (machine.take c).token =
      pure (front, ['/', '*'] ++ (inside ++ [c])) := by
    rw [taken, List.append_assoc, cutAt_append]
  have behindOpener : cutAt (byteLength front + 2) (machine.take c).token =
      pure (front ++ ['/', '*'], inside ++ [c]) := by
    have length : byteLength front + 2 = byteLength (front ++ ['/', '*']) :=
      (byteLength_append front ['/', '*']).symm
    rw [taken, length, cutAt_append]
  rw [Machine.step_comment machine front inside outer c stack token, readComment, behindOpener,
    atOpener, pure_bind, pure_bind]
  simp only [List.isSuffixOf_iff_suffix]
  split <;> rfl

/-- The end of an at-rule comes only in an at-rule, and the brace that opens a body is a single byte
    at the end of the token. -/
theorem readPlain_take (machine : Machine) (c : Char) :
    readPlain (machine.take c) c = pure ((machine.take c).readPlain c) := by
  cases stack : (machine.take c).stack with
  | nil =>
    cases begins : AtRule.ofToken? (machine.take c).token with
    | some rule =>
      simp only [readPlain, Machine.readPlain, stack, begins]
      rfl
    | none =>
      simp only [readPlain, Machine.readPlain, stack, begins]
      split
      · rename_i isBrace
        subst isBrace
        have front : withoutLast 1 (machine.take '{').token = pure machine.token :=
          withoutLast_concat machine.token '{'
        rw [openRuleBody, front, pure_bind, Machine.head, Machine.take, List.dropLast_concat]
      · rfl
  | cons context outer =>
    cases context with
    | quoted quote =>
      simp only [readPlain, Machine.readPlain, stack]
      rfl
    | comment start =>
      simp only [readPlain, Machine.readPlain, stack]
      rfl
    | atRule rule =>
      cases advanced : rule.advance? c <;>
        simp only [readPlain, endAtRule, Machine.readPlain, stack, advanced] <;> rfl
    | ruleBody =>
      cases begins : AtRule.ofToken? (machine.take c).token <;>
        simp only [readPlain, Machine.readPlain, stack, begins] <;> rfl

/-- The opener of a comment is two bytes at the end of the token, and a blank is all of the token
    exactly when it is as long. -/
theorem readOpen_take (machine : Machine) (c : Char) :
    readOpen (machine.take c) c = pure ((machine.take c).readOpen c) := by
  have opener : c = '*' ∧ ['/', '*'].isSuffixOf (machine.take c).token = true ↔
      ['/', '*'].isSuffixOf (machine.take c).token = true := by
    rw [and_iff_right_iff_imp, List.isSuffixOf_iff_suffix, Machine.take, pair_suffix_concat_iff]
    rintro ⟨isStar, _⟩
    exact isStar.symm
  have alone : byteLength (machine.take c).token = c.utf8Size ↔ (machine.take c).token = [c] := by
    have length : byteLength (machine.take c).token = byteLength machine.token + c.utf8Size :=
      byteLength_append machine.token [c]
    have token : (machine.take c).token = machine.token ++ [c] := rfl
    rw [length, Nat.add_eq_right, byteLength_eq_zero_iff, token, List.append_left_eq_self]
  rw [readOpen, Machine.readOpen]
  simp only [opener, alone]
  split
  · rfl
  · split
    · rename_i isOpener
      obtain ⟨front, token⟩ := List.isSuffixOf_iff_suffix.mp isOpener
      have fits : 2 ≤ byteLength (machine.take c).token := by
        rw [← token, byteLength_append]
        exact Nat.le_add_left _ _
      rw [difference_of_le fits, pure_bind]
    · split
      · rfl
      · split
        · rfl
        · exact readPlain_take machine c

/-- A coherent machine reads a character without a fault. Only a comment needs the coherence: its
    offset must still be that of its opener. -/
theorem step_eq {machine : Machine} (coherent : machine.Coherent) (c : Char) :
    step machine c = pure (machine.step c) := by
  rcases Context.unquoted_or machine.stack with
    unquoted | ⟨quote, outer, stack⟩ | ⟨start, outer, stack⟩
  · have opened : step machine c = readOpen (machine.take c) c := by
      cases stack : machine.stack with
      | nil => simp only [step, Machine.take, stack]
      | cons context outer =>
        rw [stack] at unquoted
        cases context with
        | quoted quote => exact unquoted.elim
        | comment start => exact unquoted.elim
        | atRule rule => simp only [step, Machine.take, stack]
        | ruleBody => simp only [step, Machine.take, stack]
    rw [opened, Machine.step_unquoted machine c unquoted, readOpen_take]
  · have quoted : step machine c = (readQuoted (machine.take c) quote c outer).map (·, none) := by
      simp only [step, Machine.take, stack]
    rw [quoted, Machine.step_quoted machine quote c outer stack, readQuoted_take]
    rfl
  · obtain ⟨front, inside, rfl, token⟩ := coherent.exists_comment stack
    have commented : step machine c =
        (readComment (machine.take c) (byteLength front) outer).map (·, none) := by
      simp only [step, Machine.take, stack]
    rw [commented, readComment_take machine front inside c outer stack token]

/-- A run with checks from a coherent machine does not fault and is the run without them. Each step
    leaves a coherent machine, so the checks of the next one hold as well. -/
theorem run_eq {machine : Machine} (coherent : machine.Coherent) (text : List Char) :
    run machine text = pure (machine.run text) := by
  induction text generalizing machine with
  | nil => rfl
  | cons c rest inductionHypothesis =>
    rw [run, step_eq coherent, pure_bind, inductionHypothesis (coherent.step c), pure_bind,
      Machine.run_cons]

end Checked

/-- Reading never faults. Whatever text a fresh machine reads, in characters of any width, every cut
    of a token is made between two of its characters, no difference goes below zero and every
    at-rule is ended from within; and reading with these checks is reading. -/
theorem checked_run_eq (file : String) (text : List Char) :
    Checked.run { file } text = .ok (Machine.run { file } text) :=
  Checked.run_eq (Machine.coherent_fresh file) text

-- No text leads to this machine: the offset of its comment lies inside a character of two bytes.
example : Checked.run { file := "a.css", stack := [.comment 1], token := ['é', 'é'] } ['/'] =
    .error (.offset 3 ['é', 'é', '/']) := by
  decide

end SelectorLint.Stylesheet
