import Mathlib.Data.List.DropRight
import Mathlib.Data.List.Infix
import Mathlib.Order.Defs.PartialOrder
import SelectorLint.Stylesheet.Position

/-!
# Positions counted on the text

A position is moved on one character at a time. Behind a text it is also what one counts on
the text: the line from the line feeds, the column from the characters behind the last of
them. The first line begins at column 0 and every later line at column 1, so the count has
two cases. Every character moves the position on in document order, across line ends as well.
So the trail of a text holds what is counted on its beginnings, strictly in order, and a
position names one place of the text.
-/

namespace SelectorLint.Stylesheet.Position

/-- The position behind a text, counted on the text. -/
def counted (text : List Char) : Position where
  line := 1 + text.count '\n'
  column := if '\n' ∈ text then 1 + (text.rtakeWhile (· ≠ '\n')).length else text.length

/-- One more character moves the position behind a text on. -/
theorem after_concat (text : List Char) (c : Char) :
    after (text ++ [c]) = (after text).advance c := by
  simp only [after, List.foldl_append, List.foldl_cons, List.foldl_nil]

/-- One more character, counted. A line feed begins a line; any other character is one more
    behind the last line feed, or one more in all. -/
theorem counted_concat (text : List Char) (c : Char) :
    counted (text ++ [c]) = (counted text).advance c := by
  by_cases lineFeed : c = '\n'
  · subst lineFeed
    simp [counted, advance, List.rtakeWhile_concat_neg, Nat.add_assoc]
  · have kept : (text ++ [c]).rtakeWhile (· ≠ '\n') = text.rtakeWhile (· ≠ '\n') ++ [c] :=
      List.rtakeWhile_concat_pos _ _ _ (by simpa using lineFeed)
    have sameMember : '\n' ∈ text ++ [c] ↔ '\n' ∈ text := by
      simp [Ne.symm lineFeed]
    simp only [counted, advance, if_neg lineFeed, kept, sameMember, List.length_append,
      List.length_singleton, List.count_append]
    have uncounted : List.count '\n' [c] = 0 :=
      List.count_eq_zero.mpr (by simpa using Ne.symm lineFeed)
    rw [uncounted]
    split <;> rfl

/-- The position behind a text is the counted one. -/
theorem after_eq_counted (text : List Char) : after text = counted text := by
  induction text using List.reverseRecOn with
  | nil => rfl
  | append_singleton text c inductionHypothesis =>
    rw [after_concat, counted_concat, inductionHypothesis]

/-- Document order is by line, then by column. -/
theorem lt_iff (first second : Position) : first < second ↔
    first.line < second.line ∨ first.line = second.line ∧ first.column < second.column := Iff.rfl

/-- Document order with equality is by line, then by column. -/
theorem le_iff (first second : Position) : first ≤ second ↔
    first.line < second.line ∨ first.line = second.line ∧ first.column ≤ second.column := Iff.rfl

/-- Document order, with its laws. -/
instance : Preorder Position where
  le_refl position := .inr ⟨rfl, Nat.le_refl _⟩
  le_trans first second third before further := by
    rw [le_iff] at *
    omega
  lt_iff_le_not_ge first second := by
    rw [lt_iff, le_iff, le_iff]
    omega

/-- Every character moves the position on. -/
theorem lt_advance (position : Position) (c : Char) : position < position.advance c := by
  rw [lt_iff, advance]
  split
  · exact .inl (Nat.lt_succ_self _)
  · exact .inr ⟨rfl, Nat.lt_succ_self _⟩

/-- A longer text ends further on. -/
theorem after_lt_after_append (text : List Char) {more : List Char} (nonempty : more ≠ []) :
    after text < after (text ++ more) := by
  induction more using List.reverseRecOn with
  | nil => exact absurd rfl nonempty
  | append_singleton more c inductionHypothesis =>
    rw [← List.append_assoc, after_concat]
    by_cases only : more = []
    · rw [only, List.append_nil]
      exact lt_advance _ c
    · exact lt_trans (inductionHypothesis only) (lt_advance _ c)

/-- The trail from a position on is where the beginnings of the text lead from there. -/
theorem trail_go_eq_map_inits (position : Position) (text : List Char) :
    trail.go position text = text.inits.map fun seen => seen.foldl advance position := by
  induction text generalizing position with
  | nil => rfl
  | cons c rest inductionHypothesis =>
    rw [trail.go, inductionHypothesis, List.inits_cons, List.map_cons, List.map_map]
    rfl

/-- The trail of a text holds the positions behind its beginnings, from the empty one on. -/
theorem trail_eq_map_inits (text : List Char) : trail text = text.inits.map after :=
  trail_go_eq_map_inits start text

/-- A trail is strictly in document order. The last position is behind the whole text, of which
    every other beginning leaves something. -/
theorem trail_pairwise_lt (text : List Char) : (trail text).Pairwise (· < ·) := by
  rw [trail_eq_map_inits, List.pairwise_map]
  induction text using List.reverseRecOn with
  | nil => exact List.pairwise_singleton _ _
  | append_singleton text c inductionHypothesis =>
    rw [List.inits_append]
    refine List.pairwise_append.mpr ⟨inductionHypothesis, List.pairwise_singleton _ _, ?_⟩
    intro seen isBeginning whole isWhole
    obtain ⟨rest, rfl⟩ := (List.mem_inits _ _).mp isBeginning
    obtain rfl : whole = seen ++ rest ++ [c] := by simpa using isWhole
    rw [List.append_assoc]
    exact after_lt_after_append seen (by simp)

/-- Positions in closed form and in order. Behind every text the position is the one counted on
    the text, more text moves it strictly on, and the trail holds the counted positions of all
    beginnings, each further on than those in front of it. -/
theorem tracking_exact (text : List Char) :
    after text = counted text ∧
    (∀ more, more ≠ [] → after text < after (text ++ more)) ∧
    trail text = text.inits.map counted ∧
    (trail text).Pairwise (· < ·) := by
  refine ⟨after_eq_counted text, ?_, ?_, trail_pairwise_lt text⟩
  · intro more nonempty
    exact after_lt_after_append text nonempty
  · rw [trail_eq_map_inits]
    exact List.map_congr_left fun seen _ => after_eq_counted seen

/-- A line feed takes the column from 3 back to 1, and the position still moves on. -/
theorem tracking_exact_over_line_end :
    after "a\nbc".toList = ⟨2, 3⟩ ∧
      "\n".toList ≠ [] ∧ after ("a\nbc".toList ++ "\n".toList) = ⟨3, 1⟩ ∧
      after "a\nbc".toList < after ("a\nbc".toList ++ "\n".toList) := by
  have further := (tracking_exact "a\nbc".toList).2.1 "\n".toList (by decide)
  exact ⟨by decide, by decide, by decide, further⟩

/-- Columns count characters of any width, from 1 on the first line and from 2 on later ones. -/
example : trail "é,\nx".toList = [⟨1, 0⟩, ⟨1, 1⟩, ⟨1, 2⟩, ⟨2, 1⟩, ⟨2, 2⟩] := by decide

/-- Behind a character the column is not 0. -/
theorem column_after_pos {text : List Char} (nonempty : text ≠ []) : 0 < (after text).column := by
  obtain ⟨front, c, rfl⟩ := (List.eq_nil_or_concat text).resolve_left nonempty
  rw [List.concat_eq_append, after_concat, advance]
  split <;> exact Nat.succ_pos _

/-- Every text but the empty one ends at or behind line 1, column 1. -/
theorem first_le_after {text : List Char} (nonempty : text ≠ []) : ⟨1, 1⟩ ≤ after text := by
  have column := column_after_pos nonempty
  have line : 1 ≤ (after text).line := by
    rw [after_eq_counted]
    exact Nat.le_add_right 1 _
  rw [le_iff]
  dsimp only
  omega

/-- The end of a prelude is one column before the last character in front of its brace. -/
theorem eq_beforeBrace {position : Position} (positive : 0 < position.column) :
    position = ⟨(position.advance '{').beforeBrace.line,
      (position.advance '{').beforeBrace.column + 1⟩ := by
  have brace : (position.advance '{').beforeBrace = ⟨position.line, position.column + 1 - 2⟩ := rfl
  have column : position.column + 1 - 2 + 1 = position.column := by omega
  rw [brace, column]

/-- What is not at column 0 is at or before the end of a prelude exactly when it is before the
    last character in front of the brace. -/
theorem le_beforeBrace_iff {first position : Position} (positive : 0 < first.column) :
    first ≤ (position.advance '{').beforeBrace ↔ first < position := by
  have brace : (position.advance '{').beforeBrace = ⟨position.line, position.column + 1 - 2⟩ := rfl
  rw [brace, le_iff, lt_iff]
  dsimp only
  omega

/-- The end of a prelude is not behind its brace. -/
theorem beforeBrace_le (position : Position) : position.beforeBrace ≤ position :=
  .inr ⟨rfl, Nat.sub_le _ _⟩

/-- Ends of preludes are in the order of their braces, if something stands between the braces.
    Two columns can be taken off the later brace on the same line: there are at least two more
    than in front of the earlier one. -/
theorem beforeBrace_lt_beforeBrace {first second third : Position} (positive : 0 < first.column)
    (before : first < second) (further : second < third) :
    first.beforeBrace < third.beforeBrace := by
  rw [lt_iff] at *
  simp only [beforeBrace]
  omega

end SelectorLint.Stylesheet.Position
