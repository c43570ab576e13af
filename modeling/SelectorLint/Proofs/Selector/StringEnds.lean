import Mathlib.Algebra.Group.Nat.Even
import Mathlib.Data.List.DropRight
import Mathlib.Order.Bounds.Basic
import Mathlib.Order.Nat
import SelectorLint.Proofs.Stylesheet.Stretch
import SelectorLint.Selector.Stripped

/-!
# Where a string ends

Strings are read twice. The machine that finds preludes looks at the one character in front
of a quote: behind a backslash the quote does not end the string. Taking the bracketed parts
out of a prelude counts: a backslash in force takes the force of the next character, so a
quote behind two of them ends the string.

Both readings follow one rule with different notions of an escaped quote: the string ends at
the first quote of its own kind that is not escaped. The machine escapes whatever the other
reading escapes, so it never ends a string earlier. The two come apart exactly where the
other reading ends a string behind a non-empty even run of backslashes.
-/

namespace SelectorLint.Selector

open Stylesheet

/-! ## Ends of strings in general -/

/-- A string with a given content ends at a place: it is open behind every part of the content
    up to that place, and behind the character there no string is open. The reading tells which
    string is open behind a part. -/
structure EndsAt (reading : List Char → Option Char) (quote : Char) (content : List Char)
    (place : Nat) : Prop where
  /-- The place holds a character. -/
  within : place < content.length
  /-- The string is open in front of it. -/
  opened : ∀ cut ≤ place, reading (content.take cut) = some quote
  /-- It is not open behind it. -/
  closed : reading (content.take (place + 1)) = none

/-- The places of quotes of one kind that the text in front of them does not escape. -/
def unescaped (escapes : List Char → Bool) (quote : Char) (content : List Char) : Set Nat :=
  {place | content[place]? = some quote ∧ escapes (content.take place) = false}

instance (escapes : List Char → Bool) (quote : Char) (content : List Char) (place : Nat) :
    Decidable (place ∈ unescaped escapes quote content) :=
  inferInstanceAs (Decidable (_ ∧ _))

/-- A reading that opens with a string of a kind, and that leaves it with the next quote of that
    kind unless this quote is escaped. -/
structure Ends (reading : List Char → Option Char) (quote : Char)
    (escapes : List Char → Bool) : Prop where
  /-- The string is open in front of its content. -/
  start : reading [] = some quote
  /-- As long as the string has been open, one more character ends it or leaves it open. -/
  next : ∀ part c, (∀ earlier, earlier <+: part → reading earlier = some quote) →
    reading (part ++ [c]) = if c = quote ∧ escapes part = false then none else some quote

namespace Ends

variable {reading : List Char → Option Char} {quote : Char} {escapes : List Char → Bool}
  {content : List Char}

/-- The character at a place ends the string or leaves it open. -/
theorem next_take (ends : Ends reading quote escapes) {place : Nat}
    (within : place < content.length)
    (opened : ∀ cut ≤ place, reading (content.take cut) = some quote) :
    reading (content.take (place + 1)) =
      if place ∈ unescaped escapes quote content then none else some quote := by
  have taken : content.take (place + 1) = content.take place ++ [content[place]] :=
    List.take_succ_eq_append_getElem within
  have member : place ∈ unescaped escapes quote content ↔
      content[place] = quote ∧ escapes (content.take place) = false := by
    simp only [unescaped, Set.mem_ofPred_eq, List.getElem?_eq_getElem within, Option.some.injEq]
  have stays (earlier : List Char) (isPart : earlier <+: content.take place) :
      reading earlier = some quote := by
    have short := isPart.length_le
    have same := List.prefix_iff_eq_take.mp (isPart.trans (List.take_prefix place content))
    rw [same]
    apply opened
    rw [List.length_take] at short
    omega
  rw [taken, ends.next _ _ stays]
  simp only [member]

/-- Up to a place without an earlier unescaped quote the string is open. -/
theorem opened_of_forall (ends : Ends reading quote escapes) {place : Nat}
    (within : place ≤ content.length)
    (escaped : ∀ earlier < place, earlier ∉ unescaped escapes quote content) :
    ∀ cut ≤ place, reading (content.take cut) = some quote := by
  induction place with
  | zero =>
    intro cut isZero
    rw [Nat.le_zero.mp isZero, List.take_zero]
    exact ends.start
  | succ place inductionHypothesis =>
    have before := inductionHypothesis (by omega) fun earlier isEarlier =>
      escaped earlier (by omega)
    intro cut atMost
    rcases Nat.le_succ_iff.mp atMost with earlier | rfl
    · exact before cut earlier
    · rw [ends.next_take (by omega) before, if_neg (escaped place (by omega))]

/-- The string ends at the first quote of its kind that is not escaped. -/
theorem endsAt_iff (ends : Ends reading quote escapes) (place : Nat) :
    EndsAt reading quote content place ↔ IsLeast (unescaped escapes quote content) place := by
  constructor
  · rintro ⟨within, opened, closed⟩
    have isEnd : place ∈ unescaped escapes quote content := by
      by_contra escaped
      rw [ends.next_take within opened, if_neg escaped] at closed
      cases closed
    refine ⟨isEnd, fun other otherEnd => ?_⟩
    by_contra earlier
    have still := opened (other + 1) (by omega)
    rw [ends.next_take (by omega) fun cut atMost => opened cut (by omega), if_pos otherEnd] at still
    cases still
  · rintro ⟨isEnd, least⟩
    have within : place < content.length := (List.getElem?_eq_some_iff.mp isEnd.1).1
    have opened : ∀ cut ≤ place, reading (content.take cut) = some quote :=
      ends.opened_of_forall within.le fun earlier isEarlier found =>
        absurd (least found) (Nat.not_le.mpr isEarlier)
    exact ⟨within, opened, by rw [ends.next_take within opened, if_pos isEnd]⟩

end Ends

/-! ## The machine that finds preludes -/

/-- The quote of the string that a machine is in. -/
def quote? (machine : Machine) : Option Char :=
  match machine.stack with
  | .quoted quote :: _ => some quote
  | _ => none

/-- A machine around which no string is open is in the string that a reading has open. -/
theorem quote?_taken {machine : Machine} (unquoted : Context.Unquoted machine.stack)
    (text : List Char) (quotation : Quotation) :
    quote? (machine.taken text (quotation.contexts ++ machine.stack)) = quotation.quote := by
  cases opened : quotation.quote with
  | some quote =>
    rw [Quotation.contexts_of_quote opened]
    rfl
  | none =>
    rw [Quotation.contexts, opened]
    rcases shape : machine.stack with _ | ⟨context, outer⟩
    · rfl
    · rw [shape] at unquoted
      cases context with
      | quoted quote => exact unquoted.elim
      | comment start => rfl
      | atRule rule => rfl
      | ruleBody => rfl

section Scanning

variable {machine : Machine} {quote : Char} (unquoted : Context.Unquoted machine.stack)
  (isQuote : isQuote quote = true)

include unquoted isQuote

/-- As long as a string has been open, the machine has taken all of it, and the reading that
    knows strings only tells whether it is open behind one more character. -/
theorem run_open_string (part : List Char)
    (stays : ∀ earlier, earlier <+: part → quote? (machine.run (quote :: earlier)).1 = some quote) :
    (Quotation.after (quote :: part)).quote = some quote ∧
      ∀ c, machine.run (quote :: (part ++ [c])) =
        (machine.taken (quote :: (part ++ [c]))
          ((Quotation.after (quote :: (part ++ [c]))).contexts ++ machine.stack), []) := by
  -- One more character is read in the string, whatever it is.
  have further (before : List Char) (c : Char)
      (opened : (Quotation.after (quote :: before)).quote = some quote)
      (taken : machine.run (quote :: before) = (machine.taken (quote :: before)
        ((Quotation.after (quote :: before)).contexts ++ machine.stack), [])) :
      machine.run (quote :: (before ++ [c])) =
        (machine.taken (quote :: (before ++ [c]))
          ((Quotation.after (quote :: (before ++ [c]))).contexts ++ machine.stack), []) := by
    rw [← List.cons_append, Machine.run_append, taken]
    dsimp only
    rw [Machine.run_singleton, Machine.step_in_string machine _ machine.stack c quote opened]
    rfl
  have nothing : Closed [] := rfl
  have opening : (Quotation.after [quote]).contexts = [.quoted quote] :=
    nothing.contexts_concat_quote isQuote
  induction part using List.reverseRecOn with
  | nil =>
    have opened : (Quotation.after [quote]).quote = some quote := by
      simp [Quotation.after, Quotation.next, isQuote]
    refine ⟨opened, fun c => further [] c opened ?_⟩
    rw [Machine.run_singleton, Machine.step_opening_quote machine unquoted quote isQuote, opening]
    rfl
  | append_singleton part last inductionHypothesis =>
    obtain ⟨opened, taken⟩ := inductionHypothesis fun earlier isPart =>
      stays earlier (isPart.trans (List.prefix_append part [last]))
    have still : (Quotation.after (quote :: (part ++ [last]))).quote = some quote := by
      rw [← quote?_taken unquoted, ← stays _ (List.prefix_refl _), taken last]
    exact ⟨still, fun c => further (part ++ [last]) c still (taken last)⟩

/-- For the machine a quote is escaped by the one character in front of it. -/
theorem ends_scanned :
    Ends (fun part => quote? (machine.run (quote :: part)).1) quote
      (fun part => part.getLast? == some '\\') where
  start := by
    rw [Machine.run_singleton, Machine.step_opening_quote machine unquoted quote isQuote]
    rfl
  next part c stays := by
    obtain ⟨opened, taken⟩ := run_open_string unquoted isQuote part stays
    have backslash : (Quotation.after (quote :: part)).backslash =
        (part.getLast? == some '\\') := by
      have noBackslash : quote ≠ '\\' := by
        rintro rfl
        exact absurd isQuote (by decide)
      rw [Quotation.after_backslash, List.getLast?_cons]
      cases part.getLast? with
      | none => simp [noBackslash]
      | some last => rfl
    rw [taken c, quote?_taken unquoted, ← List.cons_append, Quotation.after_concat,
      Quotation.next, opened, backslash]

end Scanning

/-! ## Taking bracketed parts out -/

/-- What the next character stands in behind a text. -/
def Enclosure.after (text : List Char) : Enclosure :=
  text.foldl (fun enclosure c => (enclosure.read c).1) {}

/-- One more character is read in what the others leave. -/
theorem Enclosure.after_concat (text : List Char) (c : Char) :
    after (text ++ [c]) = ((after text).read c).1 := by
  simp only [after, List.foldl_append, List.foldl_cons, List.foldl_nil]

/-- A character of a string either loses its force, or is a backslash, or ends the string, or
    does nothing. -/
theorem Enclosure.read_quoted {enclosure : Enclosure} {quote : Char}
    (opened : enclosure.quote = some quote) (c : Char) :
    (enclosure.read c).1 =
      if enclosure.escaping then { enclosure with escaping := false }
      else if c = '\\' then { enclosure with escaping := true }
      else if c = quote then { enclosure with quote := none }
      else enclosure := by
  simp only [read, opened, apply_ite Prod.fst]

/-- A character outside strings puts no backslash in force. -/
theorem Enclosure.escaping_read {enclosure : Enclosure} (outside : enclosure.quote = none)
    (c : Char) : (enclosure.read c).1.escaping = enclosure.escaping := by
  simp only [read, outside]
  repeat' split
  all_goals rfl

/-- Outside strings no backslash is in force: a string is only left while none is. -/
theorem Enclosure.escaping_after (text : List Char) (outside : (after text).quote = none) :
    (after text).escaping = false := by
  induction text using List.reverseRecOn with
  | nil => rfl
  | append_singleton text c inductionHypothesis =>
    rw [after_concat] at outside ⊢
    cases opened : (after text).quote with
    | none => rw [escaping_read opened, inductionHypothesis opened]
    | some quote =>
      rw [read_quoted opened] at outside ⊢
      split_ifs at outside ⊢ with inForce backslash ends
      · rfl
      · exact absurd (opened.symm.trans outside) (by simp)
      · simpa using inForce
      · exact absurd (opened.symm.trans outside) (by simp)

/-- The number of backslashes at the end of a text. -/
def backslashes (text : List Char) : Nat := (text.rtakeWhile (· = '\\')).length

/-- One more character goes on with the backslashes or ends them. -/
theorem backslashes_concat (text : List Char) (c : Char) :
    backslashes (text ++ [c]) = if c = '\\' then backslashes text + 1 else 0 := by
  by_cases backslash : c = '\\' <;>
    simp [backslashes, backslash]

/-- There are backslashes at the end of a text exactly when it ends with one. -/
theorem backslashes_pos_iff (text : List Char) :
    0 < backslashes text ↔ text.getLast? = some '\\' := by
  induction text using List.reverseRecOn with
  | nil => simp [backslashes]
  | append_singleton text c _ =>
    rw [backslashes_concat, List.getLast?_concat]
    by_cases backslash : c = '\\' <;> simp [backslash]

/-- As long as a string has been open, a backslash is in force behind an odd run of them. -/
theorem after_open_string {front : List Char} {quote : Char}
    (outside : (Enclosure.after front).quote = none) (part : List Char)
    (stays : ∀ earlier, earlier <+: part →
      (Enclosure.after (front ++ quote :: earlier)).quote = some quote) :
    (Enclosure.after (front ++ quote :: part)).escaping = decide ¬Even (backslashes part) := by
  induction part using List.reverseRecOn with
  | nil =>
    rw [Enclosure.after_concat, Enclosure.escaping_read outside,
      Enclosure.escaping_after front outside]
    rfl
  | append_singleton part c inductionHypothesis =>
    have before := inductionHypothesis fun earlier isPart =>
      stays earlier (isPart.trans (List.prefix_append part [c]))
    have opened := stays part (List.prefix_append part [c])
    have reads : Enclosure.after (front ++ quote :: (part ++ [c])) =
        ((Enclosure.after (front ++ quote :: part)).read c).1 := by
      rw [← List.cons_append, ← List.append_assoc, Enclosure.after_concat]
    rw [reads, Enclosure.read_quoted opened, before, backslashes_concat]
    by_cases even : Even (backslashes part)
    · by_cases backslash : c = '\\'
      · simp [even, backslash, Nat.even_add_one]
      · by_cases ends : c = quote
        · subst ends
          simp [even, backslash]
        · simp [even, backslash, ends, before]
    · by_cases backslash : c = '\\' <;> simp [even, backslash, Nat.even_add_one]

/-- Where bracketed parts are taken out, a quote is escaped by an odd run of backslashes. -/
theorem ends_stripped {front : List Char} {quote : Char}
    (outside : (Enclosure.after front).quote = none) (isQuote : isQuote quote = true) :
    Ends (fun part => (Enclosure.after (front ++ quote :: part)).quote) quote
      (fun part => decide ¬Even (backslashes part)) where
  start := by
    have quote : quote = '\x22' ∨ quote = '\x27' := by
      simpa only [Stylesheet.isQuote, decide_eq_true_eq] using isQuote
    rw [Enclosure.after_concat, Enclosure.read, outside]
    dsimp only
    rw [if_pos quote]
  next part c stays := by
    have escaping := after_open_string outside part stays
    have opened := stays part (List.prefix_refl part)
    have noBackslash : quote ≠ '\\' := by
      rintro rfl
      exact absurd isQuote (by decide)
    rw [← List.cons_append, ← List.append_assoc, Enclosure.after_concat,
      Enclosure.read_quoted opened, escaping]
    by_cases ends : c = quote ∧ decide (¬Even (backslashes part)) = false
    · rw [if_pos ends, ends.2, if_neg (by decide), ends.1, if_neg noBackslash, if_pos rfl]
    · rw [if_neg ends]
      split_ifs with inForce backslash isQuote
      · exact opened
      · exact opened
      · exact absurd ⟨isQuote, eq_false_of_ne_true inForce⟩ ends
      · exact opened

/-! ## The two ends compared -/

/-- Where the machine leaves a string that it has just entered. -/
def ScannedTo (machine : Machine) (quote : Char) (content : List Char) : Nat → Prop :=
  EndsAt (fun part => quote? (machine.run (quote :: part)).1) quote content

/-- Where a string is left that opens behind a part of a prelude, when bracketed parts are taken
    out. -/
def StrippedTo (front : List Char) (quote : Char) (content : List Char) : Nat → Prop :=
  EndsAt (fun part => (Enclosure.after (front ++ quote :: part)).quote) quote content

/-- The last character in front of a place. -/
theorem getLast?_take_ne_iff {content : List Char} {place : Nat} (within : place ≤ content.length)
    (c : Char) :
    (content.take place).getLast? ≠ some c ↔ place = 0 ∨ content[place - 1]? ≠ some c := by
  cases place with
  | zero => simp
  | succ place =>
    have inside : place < content.length := by omega
    simp [List.getLast?_take, List.getElem?_eq_getElem inside]

/-- Where the machine leaves a string. -/
theorem scannedTo_iff {machine : Machine} {quote : Char}
    (unquoted : Context.Unquoted machine.stack) (isQuote : isQuote quote = true)
    (content : List Char) (place : Nat) :
    ScannedTo machine quote content place ↔
      IsLeast {place | content[place]? = some quote ∧
        (place = 0 ∨ content[place - 1]? ≠ some '\\')} place := by
  have places : unescaped (fun part => part.getLast? == some '\\') quote content =
      {place | content[place]? = some quote ∧ (place = 0 ∨ content[place - 1]? ≠ some '\\')} := by
    ext place
    refine and_congr_right fun found => ?_
    have within := (List.getElem?_eq_some_iff.mp found).1
    rw [beq_eq_false_iff_ne, getLast?_take_ne_iff within.le]
  rw [ScannedTo, (ends_scanned unquoted isQuote).endsAt_iff, places]

/-- Where a string is left when bracketed parts are taken out. -/
theorem strippedTo_iff {front : List Char} {quote : Char}
    (outside : (Enclosure.after front).quote = none) (isQuote : isQuote quote = true)
    (content : List Char) (place : Nat) :
    StrippedTo front quote content place ↔
      IsLeast {place | content[place]? = some quote ∧
        Even (backslashes (content.take place))} place := by
  have places : unescaped (fun part => decide ¬Even (backslashes part)) quote content =
      {place | content[place]? = some quote ∧ Even (backslashes (content.take place))} := by
    ext place
    refine and_congr_right fun _ => ?_
    rw [decide_eq_false_iff_not, not_not]
  rw [StrippedTo, (ends_stripped outside isQuote).endsAt_iff, places]

/-- Two sets of places, one inside the other: what is first in the larger one is first in the
    smaller one exactly when it is a member. -/
theorem isLeast_iff_mem {places wider : Set Nat} (within : places ⊆ wider) {place : Nat}
    (least : IsLeast wider place) : IsLeast places place ↔ place ∈ places :=
  ⟨fun first => first.1, fun member => ⟨member, fun _ other => least.2 (within other)⟩⟩

/-- If the smaller of two sets has a first place, the larger one has one that is not later. -/
theorem exists_isLeast_le {places wider : Set Nat} (within : places ⊆ wider) {place : Nat}
    (least : IsLeast places place) : ∃ earlier ≤ place, IsLeast wider earlier := by
  classical
  have nonempty : ∃ place, place ∈ wider := ⟨place, within least.1⟩
  have first : IsLeast wider (Nat.find nonempty) := Nat.isLeast_find nonempty
  exact ⟨Nat.find nonempty, first.2 (within least.1), first⟩

/-- Two sets of places, one inside the other, have different first places, or only the larger
    one has any, exactly when what is first in the larger one is not in the smaller one. -/
theorem exists_isLeast_differ_iff {places wider : Set Nat} (within : places ⊆ wider) :
    (∃ place, ¬(IsLeast places place ↔ IsLeast wider place)) ↔
      ∃ place, IsLeast wider place ∧ place ∉ places := by
  constructor
  · rintro ⟨place, differ⟩
    by_cases least : IsLeast wider place
    · refine ⟨place, least, fun member => differ ?_⟩
      exact iff_of_true ((isLeast_iff_mem within least).mpr member) least
    · have first : IsLeast places place := by
        by_contra notFirst
        exact differ (iff_of_false notFirst least)
      obtain ⟨earlier, _, earlierLeast⟩ := exists_isLeast_le within first
      refine ⟨earlier, earlierLeast, fun member => least ?_⟩
      have same := first.unique ((isLeast_iff_mem within earlierLeast).mpr member)
      exact same ▸ earlierLeast
  · rintro ⟨place, least, absent⟩
    refine ⟨place, fun same => absent (same.mpr least).1⟩

/-- The character in front of a place is no backslash exactly when no run of them ends there. -/
theorem unpreceded_iff {content : List Char} {place : Nat} {c : Char}
    (found : content[place]? = some c) :
    (place = 0 ∨ content[place - 1]? ≠ some '\\') ↔ backslashes (content.take place) = 0 := by
  have within := (List.getElem?_eq_some_iff.mp found).1
  rw [← getLast?_take_ne_iff within.le, Ne, ← backslashes_pos_iff, Nat.pos_iff_ne_zero, not_not]

/-- The two readings of a string compared. The machine, wherever it stands outside strings and
    comments, leaves the string at the first quote of its kind that does not directly follow a
    backslash; taking bracketed parts out of a prelude, behind any part of it that leaves no
    string open, leaves it at the first one behind an even run of backslashes. So the second never
    ends later than the first; they end together exactly when the quote at the end of the second
    does not follow a backslash, and they differ exactly when it follows a non-empty even run. -/
theorem string_ends_compared (machine : Machine) (front content : List Char) (quote : Char)
    (isQuote : isQuote quote = true) (unquoted : Context.Unquoted machine.stack)
    (outside : (Enclosure.after front).quote = none) :
    (∀ place, ScannedTo machine quote content place ↔
      IsLeast {place | content[place]? = some quote ∧
        (place = 0 ∨ content[place - 1]? ≠ some '\\')} place) ∧
    (∀ place, StrippedTo front quote content place ↔
      IsLeast {place | content[place]? = some quote ∧
        Even (backslashes (content.take place))} place) ∧
    (∀ place, ScannedTo machine quote content place →
      ∃ earlier ≤ place, StrippedTo front quote content earlier) ∧
    (∀ place, StrippedTo front quote content place →
      (ScannedTo machine quote content place ↔
        (place = 0 ∨ content[place - 1]? ≠ some '\\'))) ∧
    ((∃ place, ¬(ScannedTo machine quote content place ↔ StrippedTo front quote content place)) ↔
      ∃ place, StrippedTo front quote content place ∧
        0 < backslashes (content.take place) ∧ Even (backslashes (content.take place))) := by
  have scanned := scannedTo_iff unquoted isQuote content
  have stripped := strippedTo_iff outside isQuote content
  have within : {place | content[place]? = some quote ∧
      (place = 0 ∨ content[place - 1]? ≠ some '\\')} ⊆
      {place | content[place]? = some quote ∧ Even (backslashes (content.take place))} := by
    rintro place ⟨found, unpreceded⟩
    refine ⟨found, ?_⟩
    rw [(unpreceded_iff found).mp unpreceded]
    exact Even.zero
  refine ⟨scanned, stripped, ?_, ?_, ?_⟩
  · intro place ends
    simp only [scanned, stripped] at ends ⊢
    exact exists_isLeast_le within ends
  · intro place ends
    rw [stripped] at ends
    rw [scanned, isLeast_iff_mem within ends]
    exact and_iff_right ends.1.1
  · simp only [scanned, stripped]
    rw [exists_isLeast_differ_iff within]
    refine exists_congr fun place => and_congr_right fun ends => ?_
    obtain ⟨found, even⟩ := ends.1
    have absent : place ∉ {place | content[place]? = some quote ∧
        (place = 0 ∨ content[place - 1]? ≠ some '\\')} ↔
        backslashes (content.take place) ≠ 0 := by
      rw [Ne, ← unpreceded_iff found]
      exact not_congr (and_iff_right found)
    rw [absent, Nat.pos_iff_ne_zero]
    exact (and_iff_left even).symm

/-- A string that holds two backslashes in front of its first quote, inside a square bracket. Taking
    brackets out ends it at that quote; the machine goes on to the next one. -/
theorem string_ends_compared_two_backslashes :
    isQuote '\x22' = true ∧
    Context.Unquoted (Machine.run { file := "a.css" } ".a[t=".toList).1.stack ∧
    (Enclosure.after ".a[t=".toList).quote = none ∧
    StrippedTo ".a[t=".toList '\x22' ['\\', '\\', '\x22', ']', '\x22'] 2 ∧
    ScannedTo (Machine.run { file := "a.css" } ".a[t=".toList).1 '\x22'
      ['\\', '\\', '\x22', ']', '\x22'] 4 ∧
    ¬ScannedTo (Machine.run { file := "a.css" } ".a[t=".toList).1 '\x22'
      ['\\', '\\', '\x22', ']', '\x22'] 2 := by
  have isQuote : isQuote '\x22' = true := by decide
  have unquoted : Context.Unquoted (Machine.run { file := "a.css" } ".a[t=".toList).1.stack :=
    trivial
  have outside : (Enclosure.after ".a[t=".toList).quote = none := by decide
  have stripped : StrippedTo ".a[t=".toList '\x22' ['\\', '\\', '\x22', ']', '\x22'] 2 :=
    ⟨by decide, by decide, by decide⟩
  have compared := string_ends_compared _ _ ['\\', '\\', '\x22', ']', '\x22'] _ isQuote unquoted
    outside
  refine ⟨isQuote, unquoted, outside, stripped, ⟨by decide, by decide, by decide⟩, ?_⟩
  intro scanned
  have unpreceded := (compared.2.2.2.1 2 stripped).mp scanned
  exact absurd unpreceded (by decide)

end SelectorLint.Selector
