import SelectorLint.Proofs.Stylesheet.Runs

/-!
# Stretches of a token

A stretch is text that a machine takes into its token without ending the token. Strings
in it are entered and left again, and no comment opens in it. Whether the other characters
leave the token open depends on the innermost context; a stretch is read in an at-rule that
goes on, in the declarations of a rule, or at the top level in front of an opening brace.
-/

namespace SelectorLint.Stylesheet

open Text

/-- The context of the open string, if one is open. -/
def Quotation.contexts (quotation : Quotation) : List Context :=
  quotation.quote.toList.map Context.quoted

/-- Where no string is open there is no context of one. -/
theorem Closed.contexts {text : List Char} (closed : Closed text) :
    (Quotation.after text).contexts = [] := by
  rw [Quotation.contexts, closed]
  rfl

/-- An open string is one context. -/
theorem Quotation.contexts_of_quote {quotation : Quotation} {quote : Char}
    (opened : quotation.quote = some quote) : quotation.contexts = [.quoted quote] := by
  rw [contexts, opened]
  rfl

/-- A quote behind closed strings opens one. -/
theorem Closed.contexts_concat_quote {text : List Char} (closed : Closed text) {c : Char}
    (isQuote : isQuote c = true) : (Quotation.after (text ++ [c])).contexts = [.quoted c] := by
  apply Quotation.contexts_of_quote
  rw [Quotation.after_concat, Quotation.next, closed]
  simp [isQuote]

namespace Machine

/-- The machine that has taken a text into its token and stands in given contexts. -/
def taken (machine : Machine) (text : List Char) (stack : List Context) : Machine :=
  { machine with
    stack := stack
    token := machine.token ++ text
    position := text.foldl Position.advance machine.position }

/-- Taking a text puts the machine into the given contexts. -/
@[simp]
theorem taken_stack (machine : Machine) (text : List Char) (stack : List Context) :
    (machine.taken text stack).stack = stack := rfl

/-- Taking a text puts it at the end of the token. -/
@[simp]
theorem taken_token (machine : Machine) (text : List Char) (stack : List Context) :
    (machine.taken text stack).token = machine.token ++ text := rfl

/-- Taking one more character. -/
theorem take_taken (machine : Machine) (text : List Char) (stack : List Context) (c : Char) :
    (machine.taken text stack).take c = machine.taken (text ++ [c]) stack := by
  simp only [take, taken, List.append_assoc, List.foldl_append, List.foldl_cons, List.foldl_nil]

/-- Changing the contexts of a machine that has taken a text. -/
theorem taken_with_stack (machine : Machine) (text : List Char) (stack other : List Context) :
    { machine.taken text stack with stack := other } = machine.taken text other := rfl

/-- In a string, the machine and the reading that knows strings only agree on the next
    character: it is taken, and it ends the string for both or for neither. The reading may
    begin anywhere in the token, since it sees the character in front of the next one. -/
theorem step_string (machine : Machine) (front seen : List Char) (outer : List Context)
    (c quote : Char) (stack : machine.stack = .quoted quote :: outer)
    (token : machine.token = front ++ seen) (opened : (Quotation.after seen).quote = some quote) :
    machine.step c = ({ machine.take c with
      stack := (Quotation.after (seen ++ [c])).contexts ++ outer }, none) := by
  have nonempty : seen ≠ [] := by
    rintro rfl
    exact absurd opened (by simp)
  have escape : (machine.take c).escaped = (Quotation.after seen).backslash := by
    rw [escaped, take, List.dropLast_concat, token, List.getLast?_append_of_ne_nil _ nonempty,
      Quotation.after_backslash]
  rw [step_quoted _ quote c outer stack, readQuoted, escape, Quotation.after_concat,
    Quotation.contexts, Quotation.next, opened]
  dsimp only
  by_cases ends : c = quote ∧ (Quotation.after seen).backslash = false
  · rw [if_pos ends, if_pos ends]
    rfl
  · have unchanged : machine.take c =
        { machine.take c with stack := .quoted quote :: outer } := by
      rw [← stack]
      rfl
    rw [if_neg ends, if_neg ends]
    exact congrArg (·, none) unchanged

/-- In a string that was opened in the text taken, the next character is taken as well. -/
theorem step_in_string (machine : Machine) (before : List Char) (outer : List Context)
    (c quote : Char) (opened : (Quotation.after before).quote = some quote) :
    (machine.taken before ((Quotation.after before).contexts ++ outer)).step c =
      (machine.taken (before ++ [c])
        ((Quotation.after (before ++ [c])).contexts ++ outer), none) := by
  rw [Quotation.contexts_of_quote opened,
    step_string _ machine.token before outer c quote rfl rfl opened, take_taken, taken_with_stack]

/-- Outside strings, a quote is taken and opens a string. -/
theorem step_opens_string (machine : Machine) (before : List Char) (outer : List Context)
    (c : Char) (unquoted : Context.Unquoted outer) (closed : Closed before)
    (isQuote : isQuote c = true) :
    (machine.taken before outer).step c =
      (machine.taken (before ++ [c])
        ((Quotation.after (before ++ [c])).contexts ++ outer), none) := by
  rw [step_opening_quote (machine.taken before outer) unquoted c isQuote, take_taken,
    closed.contexts_concat_quote isQuote]
  rfl

/-- Outside strings, a character that opens no string or comment and is no boundary by itself
    is read by what it means in the innermost context. -/
theorem step_plain (machine : Machine) (before : List Char) (stack : List Context) (c : Char)
    (unquoted : Context.Unquoted stack) (noQuote : isQuote c = false)
    (noOpener : c = '*' → (machine.token ++ before).getLast? ≠ some '/')
    (noBoundary : machine.token ++ before = [] → isBlank c = false ∧ c ≠ '}') :
    (machine.taken before stack).step c =
      (machine.taken (before ++ [c]) stack).readPlain c := by
  rw [step_readPlain (machine.taken before stack) unquoted c noQuote noOpener noBoundary,
    take_taken]

/-- Text that a machine takes into its token without ending the token. The contexts around
    the strings of the text are a function of the characters seen outside them, since the
    count of braces is part of a context. -/
structure Stretch (machine : Machine) (around : List Char → List Context)
    (text : List Char) : Prop where
  /-- The contexts around strings are no strings or comments. -/
  unquoted : ∀ seen, Context.Unquoted (around seen)
  /-- No comment opens inside the text. -/
  uncommented : Uncommented text
  /-- No comment opens where the token and the text meet. -/
  apart : machine.token.getLast? ≠ some '/'
  /-- The text does not begin with a boundary. -/
  begun : machine.token = [] → ∀ c ∈ text.head?, isBlank c = false ∧ c ≠ '}'
  /-- No character outside strings ends the token. -/
  goesOn : ∀ before c, before ++ [c] <+: text → Closed before → isQuote c = false →
    (machine.taken (before ++ [c]) (around (outside before))).readPlain c =
      (machine.taken (before ++ [c]) (around (outside before ++ [c])), none)

namespace Stretch

variable {machine : Machine} {around : List Char → List Context} {text : List Char}

/-- A character of a stretch that stands outside strings is no comment opener and no boundary
    by itself. -/
theorem step_outside (stretch : Stretch machine around text) (before : List Char) (c : Char)
    (part : before ++ [c] <+: text) (closed : Closed before) (noQuote : isQuote c = false) :
    (machine.taken before (around (outside before))).step c =
      (machine.taken (before ++ [c]) (around (outside before ++ [c])), none) := by
  rw [step_plain machine before _ c (stretch.unquoted _) noQuote]
  · exact stretch.goesOn before c part closed noQuote
  · rintro rfl slash
    by_cases empty : before = []
    · rw [empty, List.append_nil] at slash
      exact stretch.apart slash
    · rw [List.getLast?_append_of_ne_nil _ empty] at slash
      exact stretch.uncommented.not_slash_star part closed slash
  · intro empty
    obtain ⟨emptyToken, rfl⟩ := List.append_eq_nil_iff.mp empty
    obtain ⟨rest, rfl⟩ := part
    exact stretch.begun emptyToken c rfl

/-- One character of a stretch is taken. The machine is in a string behind it exactly when
    the reading that knows strings only is. -/
theorem step_taken (stretch : Stretch machine around text) (before : List Char) (c : Char)
    (part : before ++ [c] <+: text) :
    (machine.taken before ((Quotation.after before).contexts ++ around (outside before))).step c =
      (machine.taken (before ++ [c]) ((Quotation.after (before ++ [c])).contexts ++
        around (outside (before ++ [c]))), none) := by
  cases opened : (Quotation.after before).quote with
  | some quote =>
    have inside : ¬(Closed before ∧ isQuote c = false) := by
      rintro ⟨closed, _⟩
      rw [Closed, opened] at closed
      exact Option.some_ne_none quote closed
    rw [outside_concat, if_neg inside, List.append_nil]
    exact step_in_string machine before _ c quote opened
  | none =>
    have closed : Closed before := opened
    have contexts : (Quotation.after before).contexts = [] := by
      rw [Quotation.contexts, opened]
      rfl
    rw [contexts, List.nil_append, outside_concat]
    cases noQuote : isQuote c with
    | true =>
      rw [if_neg (by simp), List.append_nil]
      exact step_opens_string machine before _ c (stretch.unquoted _) closed noQuote
    | false =>
      have still : (Quotation.after (before ++ [c])).contexts = [] := by
        rw [Quotation.contexts, (closed_concat_iff before c noQuote).mpr closed]
        rfl
      rw [if_pos ⟨closed, rfl⟩, still, List.nil_append]
      exact stretch.step_outside before c part closed noQuote

/-- A run over a stretch takes all of it and emits nothing. The induction follows the
    characters from the left, so each is read behind a part of the stretch. -/
theorem run (stretch : Stretch machine around text) (entered : machine.stack = around []) :
    machine.run text =
      (machine.taken text ((Quotation.after text).contexts ++ around (outside text)), []) := by
  have parts (before : List Char) : before <+: text →
      machine.run before = (machine.taken before
        ((Quotation.after before).contexts ++ around (outside before)), []) := by
    induction before using List.reverseRecOn with
    | nil =>
      intro _
      have unchanged : machine.taken [] (around []) = machine := by
        simp only [taken, List.append_nil, List.foldl_nil, ← entered]
      rw [run_nil, outside_nil]
      exact congrArg (·, []) unchanged.symm
    | append_singleton before c inductionHypothesis =>
      intro part
      have shorter : before <+: text := (List.prefix_append before [c]).trans part
      rw [run_append, inductionHypothesis shorter, run_singleton,
        stretch.step_taken before c part]
      rfl
  exact parts text (List.prefix_refl text)

/-- A run over a stretch that leaves no string open and over one more character outside
    strings: that character is read by what it means in the innermost context. -/
theorem run_concat (stretch : Stretch machine around text) (entered : machine.stack = around [])
    (c : Char) (closed : Closed text) (noQuote : isQuote c = false) (noStar : c ≠ '*')
    (noBoundary : machine.token ++ text = [] → isBlank c = false ∧ c ≠ '}') :
    machine.run (text ++ [c]) =
      (((machine.taken (text ++ [c]) (around (outside text))).readPlain c).1,
        ((machine.taken (text ++ [c]) (around (outside text))).readPlain c).2.toList) := by
  have contexts : (Quotation.after text).contexts ++ around (outside text) =
      around (outside text) := by
    rw [Quotation.contexts, closed]
    rfl
  have read : (machine.taken text (around (outside text))).step c =
      (machine.taken (text ++ [c]) (around (outside text))).readPlain c :=
    step_plain machine text _ c (stretch.unquoted _) noQuote (absurd · noStar) noBoundary
  rw [run_append, stretch.run entered, contexts]
  dsimp only
  rw [run_singleton, read, List.nil_append]

end Stretch

end Machine

end SelectorLint.Stylesheet
