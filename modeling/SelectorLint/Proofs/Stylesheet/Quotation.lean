import Mathlib.Data.List.Induction
import Mathlib.Data.List.Infix

/-!
# Strings in a text

A quote outside strings opens a string. The string ends at the first quote of its own
kind that does not directly follow a backslash. What lies between is text of the string,
whatever characters it has. This reading knows strings and nothing else: it is what the
grammar of stylesheets means by a character outside strings, by a text that leaves no
string open and by a comment opener that opens a comment.
-/

namespace SelectorLint.Stylesheet

/-- A character that opens a string. -/
def isQuote (c : Char) : Bool := c = '\x22' ∨ c = '\x27'

/-- What the next character of a text stands in. -/
structure Quotation where
  /-- The quote of the open string, if one is open. -/
  quote : Option Char := none
  /-- Whether the last character is a backslash. -/
  backslash : Bool := false
  deriving DecidableEq, Repr

namespace Quotation

/-- Reads one character. -/
def next (quotation : Quotation) (c : Char) : Quotation where
  quote :=
    match quotation.quote with
    | none => if isQuote c then some c else none
    | some quote => if c = quote ∧ quotation.backslash = false then none else some quote
  backslash := c = '\\'

/-- What stands open behind a text. -/
def after (text : List Char) : Quotation := text.foldl next {}

/-- In front of a text nothing stands open. -/
@[simp]
theorem after_nil : after [] = {} := rfl

/-- One more character is read from what stands open behind the others. -/
@[simp]
theorem after_concat (text : List Char) (c : Char) : after (text ++ [c]) = (after text).next c := by
  simp only [after, List.foldl_append, List.foldl_cons, List.foldl_nil]

/-- Behind a character, the flag says whether that character is a backslash. -/
theorem after_backslash (text : List Char) :
    (after text).backslash = (text.getLast? == some '\\') := by
  induction text using List.reverseRecOn with
  | nil => rfl
  | append_singleton text c _ =>
    rw [after_concat, List.getLast?_concat]
    simp [next, Bool.beq_eq_decide_eq]

/-- Only a quote can have opened a string. -/
theorem isQuote_of_after (text : List Char) (quote : Char)
    (opened : (after text).quote = some quote) : isQuote quote = true := by
  induction text using List.reverseRecOn with
  | nil => exact absurd opened (by simp)
  | append_singleton text c inductionHypothesis =>
    rw [after_concat, next] at opened
    cases before : (after text).quote with
    | none =>
      simp only [before, Option.ite_none_right_eq_some, Option.some.injEq] at opened
      exact opened.2 ▸ opened.1
    | some other =>
      simp only [before, Option.ite_none_left_eq_some, Option.some.injEq] at opened
      exact opened.2 ▸ inductionHypothesis (opened.2 ▸ before)

end Quotation

/-- A text that leaves no string open. -/
def Closed (text : List Char) : Prop := (Quotation.after text).quote = none

instance (text : List Char) : Decidable (Closed text) :=
  inferInstanceAs (Decidable (_ = none))

/-- A character that is no quote neither opens nor ends a string. -/
theorem closed_concat_iff (text : List Char) (c : Char) (noQuote : isQuote c = false) :
    Closed (text ++ [c]) ↔ Closed text := by
  rw [Closed, Closed, Quotation.after_concat, Quotation.next]
  cases before : (Quotation.after text).quote with
  | none => simp [noQuote]
  | some quote =>
    have different : c ≠ quote := by
      rintro rfl
      have opener := Quotation.isQuote_of_after text c before
      rw [noQuote] at opener
      exact Bool.noConfusion opener
    simp [different]

/-- Text without quotes neither opens nor ends a string. -/
theorem closed_append_iff (text more : List Char) (noQuotes : ∀ c ∈ more, isQuote c = false) :
    Closed (text ++ more) ↔ Closed text := by
  induction more using List.reverseRecOn with
  | nil => rw [List.append_nil]
  | append_singleton more c inductionHypothesis =>
    have noQuote : isQuote c = false := noQuotes c (by simp)
    rw [← List.append_assoc, closed_concat_iff (text ++ more) c noQuote]
    apply inductionHypothesis
    intro other member
    exact noQuotes other (List.mem_append_left [c] member)

/-- A string that is open behind a text was opened by a quote of the text. -/
theorem exists_quote_of_not_closed {text : List Char} (opened : ¬Closed text) :
    ∃ c ∈ text, isQuote c = true := by
  by_contra! noQuotes
  have closed : Closed ([] ++ text) :=
    (closed_append_iff [] text fun c member => by simpa using noQuotes c member).mpr rfl
  exact opened closed

/-- The characters outside strings of the rest of a text. The quotes themselves count to
    their strings. -/
def outsideFrom (quotation : Quotation) : List Char → List Char
  | [] => []
  | c :: rest =>
    if quotation.quote = none ∧ isQuote c = false then c :: outsideFrom (quotation.next c) rest
    else outsideFrom (quotation.next c) rest

/-- The characters of a text outside its strings. -/
def outside (text : List Char) : List Char := outsideFrom {} text

/-- An empty text has nothing outside strings. -/
@[simp]
theorem outside_nil : outside [] = [] := rfl

/-- The characters outside strings of two texts, the second read where the first ends. -/
theorem outsideFrom_append (quotation : Quotation) (first second : List Char) :
    outsideFrom quotation (first ++ second) =
      outsideFrom quotation first ++ outsideFrom (first.foldl Quotation.next quotation) second := by
  induction first generalizing quotation with
  | nil => rfl
  | cons c rest inductionHypothesis =>
    rw [List.cons_append, outsideFrom, outsideFrom, List.foldl_cons, inductionHypothesis]
    split <;> simp only [List.cons_append]

/-- A further character is outside exactly when no string is open and it opens none. -/
theorem outside_concat (text : List Char) (c : Char) :
    outside (text ++ [c]) =
      outside text ++ if Closed text ∧ isQuote c = false then [c] else [] := by
  rw [outside, outside, outsideFrom_append, outsideFrom, outsideFrom]
  rfl

/-- What is outside in the first part of a text is outside in the text. -/
theorem outside_isPrefix (first text : List Char) (part : first <+: text) :
    outside first <+: outside text := by
  obtain ⟨second, rfl⟩ := part
  rw [outside, outside, outsideFrom_append]
  exact List.prefix_append _ _

/-- No comment opens in a text: wherever `/*` stands, it stands in a string. -/
def Uncommented (text : List Char) : Prop :=
  ∀ cut < text.length, Closed (text.take cut) → ¬['/', '*'] <+: text.drop cut

instance (text : List Char) : Decidable (Uncommented text) :=
  inferInstanceAs (Decidable (∀ cut < text.length, _ → _))

/-- Where no comment opens in a text, none opens in its first part. -/
theorem Uncommented.of_isPrefix {part text : List Char} (uncommented : Uncommented text)
    (isPart : part <+: text) : Uncommented part := by
  obtain ⟨rest, rfl⟩ := isPart
  intro cut inside closed opener
  have longer : cut < (part ++ rest).length := by
    simp only [List.length_append]
    omega
  refine uncommented cut longer ?_ ?_
  · rwa [List.take_append_of_le_length (Nat.le_of_lt inside)]
  · rw [List.drop_append_of_le_length (Nat.le_of_lt inside)]
    exact opener.trans (List.prefix_append _ _)

/-- A further character opens no comment unless it is a star behind a slash, both of them
    outside strings. -/
theorem Uncommented.concat {text : List Char} (uncommented : Uncommented text) (c : Char)
    (apart : Closed text → c = '*' → text.getLast? ≠ some '/') : Uncommented (text ++ [c]) := by
  intro cut inside closed opener
  rw [List.length_append, List.length_singleton] at inside
  rw [List.take_append_of_le_length (by omega)] at closed
  rw [List.drop_append_of_le_length (by omega), List.prefix_concat_iff] at opener
  rcases opener with whole | shorter
  · -- The opener ends with the new character, so the text ends with a slash.
    have ends : ['/'] ++ ['*'] = text.drop cut ++ [c] := whole
    obtain ⟨slash, star⟩ := List.append_inj' ends rfl
    have split : text = text.take cut ++ ['/'] := by rw [slash, List.take_append_drop]
    have textClosed : Closed text := by
      rw [split]
      exact (closed_concat_iff _ '/' (by decide)).mpr closed
    apply apart textClosed (List.singleton_inj.mp star).symm
    rw [split, List.getLast?_concat]
  · have nonempty : cut < text.length := by
      have length := shorter.length_le
      simp only [List.length_cons, List.length_nil, List.length_drop] at length
      omega
    exact uncommented cut nonempty closed shorter

/-- In a text where no comment opens, a star outside strings does not follow a slash. -/
theorem Uncommented.not_slash_star {text before : List Char} (uncommented : Uncommented text)
    (part : before ++ ['*'] <+: text) (closed : Closed before) : before.getLast? ≠ some '/' := by
  intro slash
  obtain ⟨front, rfl⟩ := List.getLast?_eq_some_iff.mp slash
  obtain ⟨rest, rfl⟩ := part
  have split : front ++ ['/'] ++ ['*'] ++ rest = front ++ (['/', '*'] ++ rest) := by
    simp only [List.append_assoc, List.cons_append, List.nil_append]
  rw [split] at uncommented
  have frontClosed : Closed front := (closed_concat_iff front '/' (by decide)).mp closed
  have shorter : front.length < (front ++ (['/', '*'] ++ rest)).length := by
    simp only [List.length_append, List.length_cons]
    omega
  refine uncommented front.length shorter ?_ ?_
  · rw [List.take_left]
    exact frontClosed
  · rw [List.drop_left]
    exact List.prefix_append _ _

end SelectorLint.Stylesheet
