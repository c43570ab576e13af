import SelectorLint.Proofs.Selector.Parts
import SelectorLint.Proofs.Text.Splitting

/-!
# Dividing in one pass

A text is divided at one combinator after the other, and trimmed in between. Trimming and
dividing do not commute: the last combinator is the plain space, which is trimmed as well, and
other blanks are trimmed that are no combinator. Still the parts are the words of the text split
once at the symbols of all combinators.

Which combinators are found is read off the pieces that the earlier divisions leave. A symbol that
is not blank is found wherever it stands. A space is found only between two characters that are not
blank and that no other combinator separates.
-/

namespace SelectorLint.Selector

open Text

/-- Whether a character is the symbol of one of some combinators. -/
def isSymbolOf (combinators : List Combinator) (c : Char) : Bool :=
  combinators.any fun combinator => c == combinator.symbol

/-- The combinators of preludes are five different ones. -/
theorem Combinator.nodup_all : Combinator.all.Nodup := by decide

namespace Parts

/-! ## The parts -/

/-- The words of the parts after some divisions are those of the parts before, split once at the
    symbols of all these combinators. -/
theorem words_foldl_divide (combinators : List Combinator) (parts : Parts) :
    words (combinators.foldl divide parts).fragments =
      words (parts.fragments.flatMap (List.splitOnP (isSymbolOf combinators))) := by
  induction combinators generalizing parts with
  | nil =>
    have whole (text : List Char) : text.splitOnP (isSymbolOf []) = [text] :=
      List.splitOnP_eq_singleton fun _ _ => rfl
    rw [List.foldl_nil, funext whole, List.flatMap_singleton']
  | cons combinator rest inductionHypothesis =>
    have further (fragment : List Char) :
        (fragment.splitOn combinator.symbol).flatMap (List.splitOnP (isSymbolOf rest)) =
          fragment.splitOnP (isSymbolOf (combinator :: rest)) :=
      flatMap_splitOnP _ _ _
    rw [List.foldl_cons, inductionHypothesis, divide, ← List.flatMap_def, List.flatMap_assoc,
      words_flatMap, words_flatMap]
    simp only [further, words_splitOnP_trim]

/-- The parts of a text are its words between symbols of combinators. -/
theorem fragments_ofText (text : List Char) :
    (ofText text).fragments = words (text.splitOnP (isSymbolOf Combinator.all)) := by
  have divided := words_foldl_divide Combinator.all { fragments := [text] }
  rwa [List.flatMap_singleton] at divided

/-- The symbols of all combinators. -/
theorem isSymbolOf_all (c : Char) :
    isSymbolOf Combinator.all c = decide (c ∈ [',', '>', '+', '~', ' ']) := by
  simp [isSymbolOf, Combinator.all, Combinator.symbol, Bool.beq_eq_decide_eq]

/-- Dividing in one pass: the parts of a text are what lies between the five symbols, trimmed and
    without what is then empty. So they hold each character that is neither blank nor a symbol as
    often and in the same order as the text. -/
theorem fragments_ofText_one_pass (text : List Char) :
    (ofText text).fragments =
      ((text.splitOnP (· ∈ [',', '>', '+', '~', ' '])).map trim).filter (! ·.isEmpty) ∧
    (ofText text).fragments.flatten.filter (!isBlank ·) =
      text.filter fun c => !isBlank c && c ∉ [',', '>', '+', '~', ' '] := by
  have onePass := fragments_ofText text
  rw [funext isSymbolOf_all] at onePass
  refine ⟨onePass, ?_⟩
  rw [onePass, filter_flatten_words]
  simp only [decide_not]

/-- A tab is trimmed next to a symbol and stays inside a part. -/
example : (ofText ".a\t>\t.b\t.c ,".toList).fragments = [".a".toList, ".b\t.c".toList] := by
  decide

/-! ## The combinators found -/

/-- A division finds its combinator when a trimmed part holds the symbol. -/
theorem combinators_divide (parts : Parts) (combinator : Combinator) :
    (parts.divide combinator).combinators =
      if ∃ fragment ∈ parts.fragments, combinator.symbol ∈ trim fragment then
        parts.combinators ++ [combinator]
      else parts.combinators := by
  simp only [divide, List.any_map, List.any_eq_true, Function.comp_apply, decide_eq_true_eq,
    one_lt_length_splitOn_iff, gt_iff_lt]

/-- Divisions in turn find some of their combinators, in the order of the divisions. -/
theorem exists_sublist_combinators_foldl (combinators : List Combinator) (parts : Parts) :
    ∃ found, found.Sublist combinators ∧
      (combinators.foldl divide parts).combinators = parts.combinators ++ found := by
  induction combinators generalizing parts with
  | nil => exact ⟨[], List.Sublist.slnil, (List.append_nil _).symm⟩
  | cons combinator rest inductionHypothesis =>
    obtain ⟨found, within, total⟩ := inductionHypothesis (parts.divide combinator)
    rw [List.foldl_cons, total, combinators_divide]
    split
    · exact ⟨combinator :: found, within.cons_cons combinator, by simp⟩
    · exact ⟨found, within.cons combinator, rfl⟩

/-- A combinator is found exactly when its symbol is left in a trimmed piece of the text split at
    the symbols of the combinators in front of it. -/
theorem mem_combinators_ofText_iff {before after : List Combinator} {combinator : Combinator}
    (order : Combinator.all = before ++ combinator :: after) (text : List Char) :
    combinator ∈ (ofText text).combinators ↔
      ∃ piece ∈ text.splitOnP (isSymbolOf before), combinator.symbol ∈ trim piece := by
  have distinct := Combinator.nodup_all
  rw [order, List.nodup_append, List.nodup_cons] at distinct
  obtain ⟨-, ⟨notAfter, -⟩, apart⟩ := distinct
  have notBefore : combinator ∉ before := fun member => apart _ member _ List.mem_cons_self rfl
  obtain ⟨early, earlyWithin, earlyTotal⟩ :=
    exists_sublist_combinators_foldl before { fragments := [text] }
  obtain ⟨late, lateWithin, lateTotal⟩ := exists_sublist_combinators_foldl after
    ((before.foldl divide { fragments := [text] }).divide combinator)
  have notEarly : combinator ∉ early := fun member => notBefore (earlyWithin.subset member)
  have notLate : combinator ∉ late := fun member => notAfter (lateWithin.subset member)
  have divided := words_foldl_divide before { fragments := [text] }
  rw [List.flatMap_singleton] at divided
  have left : (∃ fragment ∈ (before.foldl divide { fragments := [text] }).fragments,
      combinator.symbol ∈ trim fragment) ↔
      ∃ piece ∈ text.splitOnP (isSymbolOf before), combinator.symbol ∈ trim piece := by
    rw [← exists_mem_words_iff, divided, exists_mem_words_iff]
  rw [← left]
  simp only [ofText, order, List.foldl_append, List.foldl_cons, lateTotal, combinators_divide,
    earlyTotal, List.nil_append]
  split
  · rename_i present
    simpa using present
  · rename_i absent
    simp [notEarly, notLate, absent]

/-- A combinator whose symbol is not blank is found wherever its symbol stands. -/
theorem mem_combinators_ofText_iff_mem (before : List Combinator) {after : List Combinator}
    {combinator : Combinator} (order : Combinator.all = before ++ combinator :: after)
    (notBlank : isBlank combinator.symbol = false)
    (other : isSymbolOf before combinator.symbol = false) (text : List Char) :
    combinator ∈ (ofText text).combinators ↔ combinator.symbol ∈ text := by
  have inPieces : combinator.symbol ∈ (text.splitOnP (isSymbolOf before)).flatten ↔
      combinator.symbol ∈ text := by
    rw [flatten_splitOnP, List.mem_filter, other]
    simp
  rw [mem_combinators_ofText_iff order, ← inPieces, List.mem_flatten]
  simp only [mem_trim_iff_of_not_blank notBlank]

/-- What stands strictly between two places of a text. -/
def between (text : List Char) (i k : Nat) : List Char := (text.drop (i + 1)).take (k - (i + 1))

/-- What stands between two places stands at a place between them. -/
theorem mem_between_iff {text : List Char} {i k : Nat} (within : k < text.length) (c : Char) :
    c ∈ between text i k ↔ ∃ (m : Fin text.length), i < m ∧ m < k ∧ text[m] = c := by
  rw [between, List.mem_iff_getElem]
  simp only [List.length_take, List.length_drop, List.getElem_take, List.getElem_drop]
  constructor
  · rintro ⟨place, inside, found⟩
    exact ⟨⟨i + 1 + place, by omega⟩, by simp only; omega, by simp only; omega, found⟩
  · rintro ⟨⟨m, inText⟩, behind, before, found⟩
    simp only [Fin.getElem_fin] at behind before found
    refine ⟨m - (i + 1), by omega, ?_⟩
    have place : i + 1 + (m - (i + 1)) = m := by omega
    simpa only [place] using found

/-- A stretch of a text of at least two characters lies between two places. -/
theorem isInfix_iff_between (text inner : List Char) (first last : Char) :
    first :: (inner ++ [last]) <:+: text ↔
      ∃ i k : Fin text.length, i < k ∧ text[i] = first ∧ text[k] = last ∧
        between text i k = inner := by
  constructor
  · rintro ⟨front, back, rfl⟩
    refine ⟨⟨front.length, by simp⟩, ⟨front.length + (inner.length + 1), by simp⟩,
      ?_, ?_, ?_, ?_⟩
    · simp
    · simp
    · simp
    · have place : front.length + (inner.length + 1) - (front.length + 1) = inner.length := by omega
      simp [between, place]
  · rintro ⟨⟨i, iWithin⟩, ⟨k, kWithin⟩, ordered, rfl, rfl, rfl⟩
    have before : i < k := ordered
    have behind : (text.drop (i + 1)).drop (k - (i + 1)) = text[k] :: text.drop (k + 1) := by
      rw [List.drop_drop, Nat.add_sub_cancel' before, List.drop_eq_getElem_cons kWithin]
    refine ⟨text.take i, text.drop (k + 1), ?_⟩
    simp only [Fin.getElem_fin, between]
    rw [List.append_assoc, List.cons_append, List.append_assoc, List.singleton_append, ← behind,
      List.take_append_drop, ← List.drop_eq_getElem_cons iWithin, List.take_append_drop]

/-- A stretch of a text given by the places of three of its characters: the first, one inside and
    the last. -/
theorem exists_infix_iff_places (text : List Char) (c : Char) (Outer Every : Char → Prop) :
    (∃ first inner last, first :: (inner ++ [last]) <:+: text ∧ Outer first ∧ Outer last ∧
      c ∈ inner ∧ ∀ x ∈ first :: (inner ++ [last]), Every x) ↔
    ∃ i j k : Fin text.length, i < j ∧ j < k ∧ Outer text[i] ∧ text[j] = c ∧ Outer text[k] ∧
      ∀ m, i ≤ m → m ≤ k → Every text[m] := by
  constructor
  · rintro ⟨first, inner, last, stretch, firstOuter, lastOuter, member, every⟩
    obtain ⟨i, k, -, rfl, rfl, rfl⟩ := (isInfix_iff_between _ _ _ _).mp stretch
    obtain ⟨j, behind, before, found⟩ := (mem_between_iff k.isLt c).mp member
    refine ⟨i, j, k, behind, before, firstOuter, found, lastOuter, fun m lower upper => ?_⟩
    apply every
    rw [List.mem_cons, List.mem_append, List.mem_singleton, mem_between_iff k.isLt]
    rcases Nat.eq_or_lt_of_le lower with same | behindFirst
    · exact .inl (by simp only [Fin.getElem_fin, same])
    rcases Nat.eq_or_lt_of_le upper with same | beforeLast
    · exact .inr (.inr (by simp only [Fin.getElem_fin, same]))
    · exact .inr (.inl ⟨m, behindFirst, beforeLast, rfl⟩)
  · rintro ⟨i, j, k, behind, before, firstOuter, found, lastOuter, every⟩
    have ordered : i < k := Nat.lt_trans behind before
    refine ⟨text[i], between text i k, text[k],
      (isInfix_iff_between _ _ _ _).mpr ⟨i, k, ordered, rfl, rfl, rfl⟩, firstOuter, lastOuter,
      (mem_between_iff k.isLt c).mpr ⟨j, behind, before, found⟩, fun x member => ?_⟩
    rw [List.mem_cons, List.mem_append, List.mem_singleton, mem_between_iff k.isLt] at member
    rcases member with rfl | ⟨m, behindFirst, beforeLast, rfl⟩ | rfl
    · exact every i (Nat.le_refl _) (Nat.le_of_lt ordered)
    · exact every m (Nat.le_of_lt behindFirst) (Nat.le_of_lt beforeLast)
    · exact every k (Nat.le_of_lt ordered) (Nat.le_refl _)

/-- The space is found exactly between two characters that are not blank and are not separated by
    another combinator. -/
theorem descendant_mem_combinators_ofText_iff (text : List Char) :
    .descendant ∈ (ofText text).combinators ↔
      ∃ i j k : Fin text.length, i < j ∧ j < k ∧ isBlank text[i] = false ∧ text[j] = ' ' ∧
        isBlank text[k] = false ∧ ∀ m, i ≤ m → m ≤ k → text[m] ∉ [',', '>', '+', '~'] := by
  have earlier (c : Char) :
      isSymbolOf [.list, .child, .adjacentSibling, .generalSibling] c = false ↔
        c ∉ [',', '>', '+', '~'] := by
    simp [isSymbolOf, Combinator.symbol]
  have order : Combinator.all = [.list, .child, .adjacentSibling, .generalSibling] ++
      [.descendant] := rfl
  rw [mem_combinators_ofText_iff order, ← exists_infix_iff_places text ' ' (isBlank · = false)
    (· ∉ [',', '>', '+', '~'])]
  simp only [← earlier]
  constructor
  · rintro ⟨piece, member, inPiece⟩
    obtain ⟨first, inner, last, stretch, firstOuter, lastOuter, inInner⟩ :=
      (mem_trim_iff_of_blank (by decide) piece).mp inPiece
    obtain ⟨inText, whole⟩ :=
      (exists_mem_splitOnP_iff _ text _).mp ⟨piece, member, stretch⟩
    exact ⟨first, inner, last, inText, firstOuter, lastOuter, inInner, whole⟩
  · rintro ⟨first, inner, last, inText, firstOuter, lastOuter, inInner, whole⟩
    obtain ⟨piece, member, stretch⟩ := (exists_mem_splitOnP_iff _ text _).mpr ⟨inText, whole⟩
    exact ⟨piece, member, (mem_trim_iff_of_blank (by decide) piece).mpr
      ⟨first, inner, last, stretch, firstOuter, lastOuter, inInner⟩⟩

/-- The combinators found in a text: some of the five, each once and in this order. Each of the
    first four is found exactly when its symbol stands in the text. The space is found exactly when
    one stands between two characters that are not blank, with none of the other four symbols from
    the first of them to the last, both included. -/
theorem combinators_ofText_exact (text : List Char) :
    (ofText text).combinators.Sublist
      [.list, .child, .adjacentSibling, .generalSibling, .descendant] ∧
    (ofText text).combinators.Nodup ∧
    (.list ∈ (ofText text).combinators ↔ ',' ∈ text) ∧
    (.child ∈ (ofText text).combinators ↔ '>' ∈ text) ∧
    (.adjacentSibling ∈ (ofText text).combinators ↔ '+' ∈ text) ∧
    (.generalSibling ∈ (ofText text).combinators ↔ '~' ∈ text) ∧
    (.descendant ∈ (ofText text).combinators ↔
      ∃ i j k : Fin text.length, i < j ∧ j < k ∧ isBlank text[i] = false ∧ text[j] = ' ' ∧
        isBlank text[k] = false ∧ ∀ m, i ≤ m → m ≤ k → text[m] ∉ [',', '>', '+', '~']) := by
  have inOrder : (ofText text).combinators.Sublist Combinator.all := by
    obtain ⟨found, within, total⟩ :=
      exists_sublist_combinators_foldl Combinator.all { fragments := [text] }
    rw [ofText, total]
    exact within
  refine ⟨inOrder, inOrder.nodup Combinator.nodup_all, ?_, ?_, ?_, ?_,
    descendant_mem_combinators_ofText_iff text⟩
  · exact mem_combinators_ofText_iff_mem [] rfl (by decide) (by decide) text
  · exact mem_combinators_ofText_iff_mem [.list] rfl (by decide) (by decide) text
  · exact mem_combinators_ofText_iff_mem [.list, .child] rfl (by decide) (by decide)
      text
  · exact mem_combinators_ofText_iff_mem [.list, .child, .adjacentSibling] rfl
      (by decide) (by decide) text

/-- A space in front of another symbol, or behind one, joins nothing. -/
example : (ofText ".a , .b".toList).combinators = [.list] := by decide

end Parts

end SelectorLint.Selector
