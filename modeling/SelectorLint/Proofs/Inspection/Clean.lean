import Mathlib.Data.List.Nodup
import SelectorLint.Proofs.Inspection.Exactness

/-!
# When an inspection finds nothing

The convention is that a rule is headed by one class selector or by pseudo-classes alone,
and that no class selector heads two rules. Taking out brackets, trimming and dividing come
before a prelude is judged; the statement here says what they amount to, on the trimmed
text alone: stylesheets without findings are exactly the ones that keep the convention.
-/

namespace SelectorLint.Inspection

open Selector Stylesheet Text

/-- A prelude without its bracketed parts and without blanks at its ends. -/
def bare (head : Prelude) : List Char := trim (strip head.text).text

/-- A prelude by itself keeps the convention. What brackets held is not looked at, except
    that square brackets are refused. -/
structure Conventional (head : Prelude) : Prop where
  /-- It has no attribute selector. -/
  attributes : (strip head.text).attributes = 0
  /-- Without its bracketed parts it is empty, or begins like a class or a pseudo-class. -/
  begins : bare head = [] ∨ (bare head).head? = some '.' ∨ (bare head).head? = some ':'
  /-- It holds neither a hash nor the symbol of a combinator. -/
  plain : ∀ c ∈ ['#', ',', '>', '+', '~', ' '], c ∉ bare head

/-- A part of a prelude is not flagged exactly when it holds no hash and begins like a class or a
    pseudo-class. -/
theorem flagsOfFragment_eq_nil_iff (span : Span) (fragment : List Char) :
    flagsOfFragment span fragment = [] ↔
      '#' ∉ fragment ∧ (fragment.head? = some '.' ∨ fragment.head? = some ':') := by
  by_cases hash : '#' ∈ fragment
  · simp [flagsOfFragment, Kind.ofText, hash]
  · by_cases dot : fragment.head? = some '.'
    · simp [flagsOfFragment, Kind.ofText, hash, dot]
    · by_cases colon : fragment.head? = some ':'
      · simp [flagsOfFragment, Kind.ofText, hash, colon]
      · simp [flagsOfFragment, Kind.ofText, hash, dot, colon]

/-- The characters that a conventional prelude leaves out are the hash and the symbols of
    the combinators. -/
theorem plain_iff (text : List Char) :
    (∀ c ∈ ['#', ',', '>', '+', '~', ' '], c ∉ text) ↔
      '#' ∉ text ∧ ∀ combinator ∈ Combinator.all, combinator.symbol ∉ text := by
  have symbols : ['#', ',', '>', '+', '~', ' '] = '#' :: Combinator.all.map Combinator.symbol :=
    rfl
  rw [symbols, List.forall_mem_cons, List.forall_mem_map]

/-- The parts of a prelude without combinators. -/
theorem fragments_of_undivided {head : Prelude}
    (undivided : (partsOf head).combinators = []) :
    (partsOf head).fragments = if bare head = [] then [] else [bare head] :=
  Parts.fragments_ofText_of_undivided undivided

/-- A prelude flags nothing exactly when it keeps the convention by itself. -/
theorem flagsOf_eq_nil_iff (head : Prelude) : flagsOf head = [] ↔ Conventional head := by
  have attributes : (if (strip head.text).hasAttribute then
      [(⟨head.span, .attributeSelector⟩ : Finding)] else []) = [] ↔
      (strip head.text).attributes = 0 := by
    by_cases counted : (strip head.text).attributes = 0
    · simp [Stripped.hasAttribute, counted]
    · simp [Stripped.hasAttribute, counted, Nat.pos_of_ne_zero counted]
  have combinators : (partsOf head).combinators.flatMap
      (fun combinator => [(⟨head.span, .combinator combinator⟩ : Finding)]) = [] ↔
      (partsOf head).combinators = [] := by
    rw [List.flatMap_eq_nil_iff, List.eq_nil_iff_forall_not_mem]
    simp only [List.cons_ne_nil, imp_false]
  rw [flagsOf, List.append_eq_nil_iff, List.append_eq_nil_iff, attributes, combinators,
    List.flatMap_eq_nil_iff]
  constructor
  · rintro ⟨noAttribute, undivided, unflagged⟩
    have symbols := (Parts.combinators_ofText_eq_nil_iff _).mp undivided
    rw [fragments_of_undivided undivided] at unflagged
    by_cases empty : bare head = []
    · exact ⟨noAttribute, .inl empty, by simp [empty]⟩
    · rw [if_neg empty, List.forall_mem_singleton, flagsOfFragment_eq_nil_iff] at unflagged
      exact ⟨noAttribute, .inr unflagged.2, (plain_iff _).mpr ⟨unflagged.1, symbols⟩⟩
  · rintro ⟨noAttribute, begins, plain⟩
    obtain ⟨noHash, symbols⟩ := (plain_iff _).mp plain
    have undivided : (partsOf head).combinators = [] :=
      (Parts.combinators_ofText_eq_nil_iff _).mpr symbols
    refine ⟨noAttribute, undivided, ?_⟩
    rw [fragments_of_undivided undivided]
    by_cases empty : bare head = []
    · simp [empty]
    · rw [if_neg empty, List.forall_mem_singleton, flagsOfFragment_eq_nil_iff]
      exact ⟨noHash, begins.resolve_left empty⟩

/-- A conventional prelude notes itself when it begins with a dot. -/
theorem notesOf_of_conventional {head : Prelude} (conventional : Conventional head) :
    notesOf head =
      if (bare head).head? = some '.' then [(bare head, head.span)] else [] := by
  obtain ⟨noHash, symbols⟩ := (plain_iff _).mp conventional.plain
  have undivided : (partsOf head).combinators = [] :=
    (Parts.combinators_ofText_eq_nil_iff _).mpr symbols
  rw [notesOf, fragments_of_undivided undivided]
  by_cases empty : bare head = []
  · simp [empty]
  · have isClass : Kind.ofText (bare head) = .cssClass ↔ (bare head).head? = some '.' := by
      rw [Kind.ofText, if_neg noHash]
      by_cases dot : (bare head).head? = some '.'
      · simp [dot]
      · by_cases colon : (bare head).head? = some ':' <;> simp [dot, colon]
    rw [if_neg empty, List.flatMap_singleton, notesOfFragment]
    simp only [isClass]

/-- The class selectors that conventional preludes note. -/
theorem map_classOccurrences {heads : List Prelude}
    (conventional : ∀ head ∈ heads, Conventional head) :
    (classOccurrences heads).map Prod.fst =
      (heads.map bare).filter (·.head? = some '.') := by
  induction heads with
  | nil => rfl
  | cons head rest inductionHypothesis =>
    rw [List.forall_mem_cons] at conventional
    rw [classOccurrences, List.flatMap_cons, List.map_append, ← classOccurrences,
      inductionHypothesis conventional.2, notesOf_of_conventional conventional.1, List.map_cons]
    by_cases dot : (bare head).head? = some '.'
    · rw [if_pos dot, List.filter_cons_of_pos (by simpa using dot)]
      rfl
    · rw [if_neg dot, List.filter_cons_of_neg (by simpa using dot)]
      rfl

/-- Nothing is repeated exactly when the selectors noted are all different. -/
theorem none_repeated_iff (noted : List Occurrence) :
    (∀ finding, ¬ Repeated noted finding) ↔ (noted.map Prod.fst).Nodup := by
  have counts (selector : List Char) :
      (noted.map Prod.fst).count selector = (occurrencesOf noted selector).length := by
    rw [List.count, List.countP_map, occurrencesOf, List.countP_eq_length_filter]
    simp only [Function.comp_def, beq_eq_decide]
  rw [List.nodup_iff_count_le_one]
  constructor
  · intro none selector
    rw [counts]
    by_contra several
    obtain ⟨occurrence, member⟩ := List.exists_mem_of_length_pos
      (show 0 < (occurrencesOf noted selector).length by omega)
    obtain ⟨isNoted, same⟩ : occurrence ∈ noted ∧ occurrence.1 = selector := by
      simpa [occurrencesOf] using member
    exact none _ ⟨occurrence, isNoted, rfl, by rw [same]; omega⟩
  · rintro atMostOnce finding ⟨occurrence, _, _, twice⟩
    have once := atMostOnce occurrence.1
    rw [counts] at once
    omega

/-- Stylesheets have no findings exactly when every prelude keeps the convention by itself
    and no two of them, over all stylesheets, are the same class selector. -/
theorem inspect_eq_nil_iff (sheets : List (String × List Char)) :
    (inspect sheets).value = [] ↔
      (∀ head ∈ sheetPreludes sheets, Conventional head) ∧
        (((sheetPreludes sheets).map bare).filter (·.head? = some '.')).Nodup := by
  obtain ⟨inspection, value, account⟩ := account_inspect sheets
  have unflagged : (∀ finding, finding ∉ (sheetPreludes sheets).flatMap flagsOf) ↔
      ∀ head ∈ sheetPreludes sheets, Conventional head := by
    rw [← List.eq_nil_iff_forall_not_mem, List.flatMap_eq_nil_iff]
    simp only [flagsOf_eq_nil_iff]
  rw [value, List.eq_nil_iff_forall_not_mem]
  simp only [account.exact, not_or, forall_and]
  rw [unflagged, none_repeated_iff]
  refine and_congr_right ?_
  intro conventional
  rw [map_classOccurrences conventional]

example : (inspect [("a.css", ".x:not(p, #q)\x7ba\x7d".toList)]).value = [] := by decide +kernel

end SelectorLint.Inspection
