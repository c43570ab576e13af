import SelectorLint.Proofs.Text.Trim

/-!
# Splitting a text at some characters

Splitting a text twice, at some characters and then each piece at some others, is splitting it
once at all of them. The pieces hold the other characters of the text, in order, and every
stretch of the text without a splitting character lies within one of them.

What matters of the pieces are the words: the trimmed pieces that are not empty. Blanks at the
ends of a text may make empty pieces or lengthen the outermost ones, also when blanks are among
the splitting characters, but they do not change the words.
-/

namespace SelectorLint.Text

variable (splits : Char → Bool)

/-! ## Pieces -/

/-- The pieces of two texts put together: the last piece of the first and the first piece of the
    second become one. -/
theorem exists_splitOnP_append (front back : List Char) :
    ∃ earlier last first later, front.splitOnP splits = earlier ++ [last] ∧
      back.splitOnP splits = first :: later ∧
      (front ++ back).splitOnP splits = earlier ++ (last ++ first) :: later := by
  obtain ⟨first, later, pieces⟩ :=
    List.exists_cons_of_ne_nil (List.splitOnP_ne_nil splits back)
  induction front with
  | nil => exact ⟨[], [], first, later, List.splitOnP_nil, pieces, pieces⟩
  | cons c rest inductionHypothesis =>
    obtain ⟨earlier, last, first, later, restPieces, backPieces, together⟩ := inductionHypothesis
    rw [List.cons_append, List.splitOnP_cons_eq_if_modifyHead,
      List.splitOnP_cons_eq_if_modifyHead, restPieces, together]
    cases splits c with
    | true => exact ⟨[] :: earlier, last, first, later, rfl, backPieces, rfl⟩
    | false =>
      cases earlier with
      | nil => exact ⟨[], c :: last, first, later, rfl, backPieces, rfl⟩
      | cons piece others =>
        exact ⟨(c :: piece) :: others, last, first, later, rfl, backPieces, rfl⟩

/-- Splitting each piece at further characters is splitting at all of them at once. -/
theorem flatMap_splitOnP (splitsToo : Char → Bool) (text : List Char) :
    (text.splitOnP splits).flatMap (List.splitOnP splitsToo) =
      text.splitOnP fun c => splits c || splitsToo c := by
  induction text with
  | nil => rfl
  | cons c rest inductionHypothesis =>
    obtain ⟨piece, others, pieces⟩ :=
      List.exists_cons_of_ne_nil (List.splitOnP_ne_nil splits rest)
    obtain ⟨first, later, parts⟩ :=
      List.exists_cons_of_ne_nil (List.splitOnP_ne_nil splitsToo piece)
    rw [List.splitOnP_cons_eq_if_modifyHead, List.splitOnP_cons_eq_if_modifyHead,
      ← inductionHypothesis, pieces]
    cases splits c with
    | true => rfl
    | false =>
      rw [Bool.false_or]
      simp only [Bool.false_eq_true, if_false, List.modifyHead_cons, List.flatMap_cons,
        List.splitOnP_cons_eq_if_modifyHead, parts]
      cases splitsToo c <;> rfl

/-- The pieces hold all other characters, in order. -/
theorem flatten_splitOnP (text : List Char) :
    (text.splitOnP splits).flatten = text.filter (!splits ·) := by
  induction text with
  | nil => rfl
  | cons c rest inductionHypothesis =>
    obtain ⟨piece, others, pieces⟩ :=
      List.exists_cons_of_ne_nil (List.splitOnP_ne_nil splits rest)
    rw [List.splitOnP_cons_eq_if_modifyHead, List.filter_cons, ← inductionHypothesis, pieces]
    cases splits c <;> rfl

/-- The first piece is a first part of the text, and every other one a stretch of it. -/
theorem isInfix_pieces {text first : List Char} {later : List (List Char)}
    (pieces : text.splitOnP splits = first :: later) :
    first <+: text ∧ ∀ piece ∈ later, piece <:+: text := by
  induction text generalizing first later with
  | nil =>
    cases pieces
    exact ⟨List.prefix_refl _, by simp⟩
  | cons c rest inductionHypothesis =>
    obtain ⟨piece, others, restPieces⟩ :=
      List.exists_cons_of_ne_nil (List.splitOnP_ne_nil splits rest)
    obtain ⟨begins, further⟩ := inductionHypothesis restPieces
    have inRest (other : List Char) (stretch : other <:+: rest) : other <:+: c :: rest :=
      stretch.trans (List.suffix_cons c rest).isInfix
    rw [List.splitOnP_cons_eq_if_modifyHead, restPieces] at pieces
    split at pieces
    · cases pieces
      refine ⟨List.nil_prefix, ?_⟩
      rw [List.forall_mem_cons]
      exact ⟨inRest piece begins.isInfix, fun other member => inRest other (further other member)⟩
    · cases pieces
      exact ⟨List.cons_prefix_cons.mpr ⟨rfl, begins⟩,
        fun other member => inRest other (further other member)⟩

/-- What lies within one piece are the stretches of the text without a splitting character. -/
theorem exists_mem_splitOnP_iff (text part : List Char) :
    (∃ piece ∈ text.splitOnP splits, part <:+: piece) ↔
      part <:+: text ∧ ∀ c ∈ part, splits c = false := by
  constructor
  · rintro ⟨piece, member, within⟩
    have stretch : piece <:+: text := by
      obtain ⟨first, later, pieces⟩ :=
        List.exists_cons_of_ne_nil (List.splitOnP_ne_nil splits text)
      obtain ⟨begins, further⟩ := isInfix_pieces splits pieces
      rw [pieces] at member
      rcases List.mem_cons.mp member with rfl | isLater
      · exact begins.isInfix
      · exact further piece isLater
    refine ⟨within.trans stretch, fun c inPart => ?_⟩
    have kept : c ∈ (text.splitOnP splits).flatten :=
      List.mem_flatten.mpr ⟨piece, member, within.subset inPart⟩
    rw [flatten_splitOnP] at kept
    simpa using (List.mem_filter.mp kept).2
  · rintro ⟨⟨front, back, rfl⟩, whole⟩
    -- The part is not cut, so it begins the first piece of what it begins.
    obtain ⟨earlier, last, first, later, partPieces, -, fromPart⟩ :=
      exists_splitOnP_append splits part back
    rw [List.splitOnP_eq_singleton whole] at partPieces
    obtain ⟨rfl, rfl⟩ : earlier = [] ∧ last = part := by
      cases earlier with
      | nil => simpa using partPieces.symm
      | cons piece others => simp at partPieces
    obtain ⟨before, ending, _, _, -, begins, together⟩ :=
      exists_splitOnP_append splits front (last ++ back)
    rw [fromPart] at begins
    cases begins
    rw [List.append_assoc, together]
    refine ⟨ending ++ (last ++ first), by simp, ?_⟩
    rw [← List.append_assoc]
    exact List.infix_append ending last first

/-! ## Words -/

/-- The trimmed pieces that are not empty. -/
def words (pieces : List (List Char)) : List (List Char) :=
  (pieces.map trim).filter (! ·.isEmpty)

/-- The words of two lists of pieces are those of the one and then those of the other. -/
theorem words_append (pieces others : List (List Char)) :
    words (pieces ++ others) = words pieces ++ words others := by
  rw [words, List.map_append, List.filter_append]
  rfl

/-- The words of pieces that are cut further are the words of each, in order. -/
theorem words_flatMap (cut : List Char → List (List Char)) (pieces : List (List Char)) :
    words (pieces.flatMap cut) = pieces.flatMap fun piece => words (cut piece) := by
  induction pieces with
  | nil => rfl
  | cons piece rest inductionHypothesis =>
    rw [List.flatMap_cons, words_append, inductionHypothesis, List.flatMap_cons]

/-- What a word holds is what a trimmed piece holds. -/
theorem exists_mem_words_iff (pieces : List (List Char)) (c : Char) :
    (∃ word ∈ words pieces, c ∈ word) ↔ ∃ piece ∈ pieces, c ∈ trim piece := by
  simp only [words, List.mem_filter, List.mem_map]
  constructor
  · rintro ⟨word, ⟨⟨piece, member, rfl⟩, -⟩, inWord⟩
    exact ⟨piece, member, inWord⟩
  · rintro ⟨piece, member, inPiece⟩
    exact ⟨trim piece, ⟨⟨piece, member, rfl⟩, by simp [List.ne_nil_of_mem inPiece]⟩, inPiece⟩

/-- A blank in front of a text does not change the words between splitting characters. -/
theorem words_splitOnP_cons_blank {c : Char} (blank : isBlank c = true) (text : List Char) :
    words ((c :: text).splitOnP splits) = words (text.splitOnP splits) := by
  obtain ⟨piece, others, pieces⟩ :=
    List.exists_cons_of_ne_nil (List.splitOnP_ne_nil splits text)
  rw [List.splitOnP_cons_eq_if_modifyHead, pieces]
  cases splits c with
  | true => rfl
  | false =>
    simp only [words, Bool.false_eq_true, if_false, List.modifyHead_cons, List.map_cons,
      trim_cons_blank blank]

/-- A blank behind a text does not change the words between splitting characters. -/
theorem words_splitOnP_concat_blank {c : Char} (blank : isBlank c = true) (text : List Char) :
    words ((text ++ [c]).splitOnP splits) = words (text.splitOnP splits) := by
  obtain ⟨earlier, last, first, later, textPieces, blankPieces, together⟩ :=
    exists_splitOnP_append splits text [c]
  rw [together, textPieces, words_append, words_append]
  congr 1
  rw [List.splitOnP_cons_eq_if_modifyHead, List.splitOnP_nil] at blankPieces
  cases isSplit : splits c with
  | true =>
    rw [isSplit] at blankPieces
    cases blankPieces
    rw [List.append_nil]
    rfl
  | false =>
    rw [isSplit] at blankPieces
    cases blankPieces
    simp only [words, List.map_cons, trim_concat_blank blank, List.map_nil]

/-- Trimming a text first does not change the words between splitting characters. -/
theorem words_splitOnP_trim (text : List Char) :
    words ((trim text).splitOnP splits) = words (text.splitOnP splits) := by
  have front (text : List Char) :
      words ((trimStart text).splitOnP splits) = words (text.splitOnP splits) := by
    induction text with
    | nil => rfl
    | cons c rest inductionHypothesis =>
      cases blank : isBlank c with
      | true =>
        rw [words_splitOnP_cons_blank splits blank, ← inductionHypothesis, trimStart,
          List.dropWhile_cons_of_pos blank]
        rfl
      | false => rw [trimStart_eq_self (by simpa using blank)]
  have back (text : List Char) :
      words ((trimEnd text).splitOnP splits) = words (text.splitOnP splits) := by
    induction text using List.reverseRecOn with
    | nil => rfl
    | append_singleton rest c inductionHypothesis =>
      cases blank : isBlank c with
      | true =>
        rw [words_splitOnP_concat_blank splits blank, ← inductionHypothesis,
          trimEnd_concat_blank blank]
      | false => rw [trimEnd_append_cons rest [] blank]; rfl
  rw [trim, back, front]

/-- The words of a text hold every character that is neither blank nor a splitting one, in
    order, and no other that is not blank. -/
theorem filter_flatten_words (text : List Char) :
    (words (text.splitOnP splits)).flatten.filter (!isBlank ·) =
      text.filter fun c => !isBlank c && !splits c := by
  have trimmed (pieces : List (List Char)) :
      (words pieces).flatten.filter (!isBlank ·) = pieces.flatten.filter (!isBlank ·) := by
    rw [words, List.flatten_filter_not_isEmpty]
    induction pieces with
    | nil => rfl
    | cons piece rest inductionHypothesis =>
      simp only [List.map_cons, List.flatten_cons, List.filter_append, filter_trim,
        inductionHypothesis]
  rw [trimmed, flatten_splitOnP, List.filter_filter]

end SelectorLint.Text
