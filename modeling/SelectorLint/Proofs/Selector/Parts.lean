import SelectorLint.Proofs.Text.Trim
import SelectorLint.Selector.Parts

/-!
# What dividing a text can leave

The parts of a text hold no plain space, since the last division is at the space. A text
is divided by nothing exactly when no symbol of a combinator is left in it once its ends
are trimmed; it is then its own only part. Divisions only add to the combinators found, so
the first one that divides something decides.
-/

namespace SelectorLint.Selector

open Text

/-- The pieces between the occurrences of a character do not hold it. -/
theorem not_mem_of_mem_splitOn {text piece : List Char} {c : Char}
    (member : piece ∈ text.splitOn c) : c ∉ piece := by
  induction text generalizing piece with
  | nil =>
    rw [List.splitOn_nil, List.mem_singleton] at member
    simp [member]
  | cons head rest inductionHypothesis =>
    obtain ⟨first, others, pieces⟩ := List.exists_cons_of_ne_nil (List.splitOn_ne_nil c rest)
    rw [List.splitOn_cons_eq_if_modifyHead, pieces] at member
    rw [pieces] at inductionHypothesis
    split at member
    · rcases List.mem_cons.mp member with rfl | later
      · exact List.not_mem_nil
      · exact inductionHypothesis later
    · rename_i different
      rw [List.modifyHead_cons] at member
      rcases List.mem_cons.mp member with rfl | later
      · rw [List.mem_cons]
        rintro (rfl | inFirst)
        · exact different (beq_self_eq_true c)
        · exact inductionHypothesis List.mem_cons_self inFirst
      · exact inductionHypothesis (List.mem_cons_of_mem first later)

/-- A character divides a text into more than one piece exactly when the text holds it. -/
theorem one_lt_length_splitOn_iff (text : List Char) (c : Char) :
    1 < (text.splitOn c).length ↔ c ∈ text := by
  constructor
  · intro several
    by_contra absent
    rw [List.splitOn_eq_singleton absent] at several
    exact absurd several (by simp)
  · intro present
    obtain ⟨front, rest, rfl⟩ := List.append_of_mem present
    rw [List.splitOn_append_cons_self, List.length_append]
    have frontPieces := List.length_pos_of_ne_nil (List.splitOn_ne_nil c front)
    have restPieces := List.length_pos_of_ne_nil (List.splitOn_ne_nil c rest)
    omega

namespace Parts

/-- Right behind a division at a combinator no part holds its symbol. -/
theorem symbol_not_mem_divide {parts : Parts} {combinator : Combinator} {piece : List Char}
    (member : piece ∈ (parts.divide combinator).fragments) : combinator.symbol ∉ piece := by
  simp only [divide] at member
  obtain ⟨pieces, piecesMember, inPieces⟩ := List.mem_flatten.mp member
  obtain ⟨whole, _, rfl⟩ := List.mem_map.mp piecesMember
  exact not_mem_of_mem_splitOn inPieces

/-- No part of a text holds a plain space. -/
theorem space_not_mem_fragment {text fragment : List Char}
    (member : fragment ∈ (ofText text).fragments) : ' ' ∉ fragment := by
  have last : Combinator.all =
      [.list, .child, .adjacentSibling, .generalSibling] ++ [.descendant] := rfl
  simp only [ofText, last, List.foldl_append, List.mem_filter, List.mem_map] at member
  obtain ⟨⟨piece, inDivided, rfl⟩, _⟩ := member
  intro space
  exact symbol_not_mem_divide inDivided ((trim_isInfix piece).subset space)

/-- A part without the symbol of a combinator is only trimmed. -/
theorem divide_undivided (fragment : List Char) (combinator : Combinator)
    (absent : combinator.symbol ∉ trim fragment) :
    divide { fragments := [fragment] } combinator = { fragments := [trim fragment] } := by
  simp only [divide, List.map_cons, List.map_nil, List.splitOn_eq_singleton absent]
  rfl

/-- A part with the symbol of a combinator shows that combinator. -/
theorem divide_divided (fragment : List Char) (combinator : Combinator)
    (present : combinator.symbol ∈ trim fragment) :
    (divide { fragments := [fragment] } combinator).combinators = [combinator] := by
  have several := (one_lt_length_splitOn_iff _ _).mpr present
  simp [divide, several]

/-- Divisions keep the combinators found before them. -/
theorem combinators_isPrefix_foldl (parts : Parts) (combinators : List Combinator) :
    parts.combinators <+: (combinators.foldl divide parts).combinators := by
  induction combinators generalizing parts with
  | nil => exact List.prefix_refl _
  | cons combinator rest inductionHypothesis =>
    have kept : parts.combinators <+: (parts.divide combinator).combinators := by
      rw [divide]
      split
      · exact List.prefix_append _ _
      · exact List.prefix_refl _
    exact kept.trans (inductionHypothesis _)

/-- One text divided at some combinators in turn: nothing is found exactly when the trimmed
    text holds none of their symbols, and then it stays the only part. -/
theorem foldl_divide_undivided_iff (fragment : List Char) (combinators : List Combinator) :
    (combinators.foldl divide { fragments := [fragment] }).combinators = [] ↔
      ∀ combinator ∈ combinators, combinator.symbol ∉ trim fragment := by
  induction combinators generalizing fragment with
  | nil => simp
  | cons combinator rest inductionHypothesis =>
    rw [List.foldl_cons, List.forall_mem_cons]
    by_cases present : combinator.symbol ∈ trim fragment
    · have found := combinators_isPrefix_foldl (divide { fragments := [fragment] } combinator) rest
      rw [divide_divided fragment combinator present] at found
      constructor
      · intro empty
        rw [empty] at found
        exact absurd (List.prefix_nil.mp found) (by simp)
      · rintro ⟨absent, _⟩
        exact absurd present absent
    · rw [divide_undivided fragment combinator present, inductionHypothesis, trim_trim]
      simp only [present, not_false_eq_true, true_and]

/-- A text without symbols of some combinators keeps its trimmed form when divided at them. -/
theorem foldl_divide_fragments (fragment : List Char) (combinators : List Combinator)
    (absent : ∀ combinator ∈ combinators, combinator.symbol ∉ trim fragment) :
    (combinators.foldl divide { fragments := [fragment] }).fragments.map trim =
      [trim fragment] := by
  induction combinators generalizing fragment with
  | nil => rfl
  | cons combinator rest inductionHypothesis =>
    rw [List.forall_mem_cons] at absent
    rw [List.foldl_cons, divide_undivided fragment combinator absent.1, inductionHypothesis,
      trim_trim]
    rw [trim_trim]
    exact absent.2

/-- A text shows no combinator exactly when its trimmed form holds no symbol of one. -/
theorem combinators_ofText_eq_nil_iff (text : List Char) :
    (ofText text).combinators = [] ↔
      ∀ combinator ∈ Combinator.all, combinator.symbol ∉ trim text := by
  simp only [ofText]
  exact foldl_divide_undivided_iff text Combinator.all

/-- A text that shows no combinator has its trimmed form as only part, and no part when it
    is blank. -/
theorem fragments_ofText_of_undivided {text : List Char}
    (undivided : (ofText text).combinators = []) :
    (ofText text).fragments = if trim text = [] then [] else [trim text] := by
  have absent := (combinators_ofText_eq_nil_iff text).mp undivided
  simp only [ofText, foldl_divide_fragments text Combinator.all absent]
  by_cases empty : trim text = []
  · simp [empty]
  · simp [empty]

end Parts

end SelectorLint.Selector
