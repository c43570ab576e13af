import SelectorLint.Proofs.Selector.Bracketing

/-!
# Taking bracketed parts out, by the grammar

Taking the bracketed parts out of a prelude follows three flags and the open string, one character
at a time. Against the grammar this comes to one rule: the characters that stand for themselves
outside groups are kept, and every square group that opens is counted, wherever it stands and
whether it ends or not. A part that is passed over leaves what is open as it was, so the rule for
a sequence follows from the rule for its pieces.
-/

namespace SelectorLint.Selector

open Stylesheet

/-! ## One character -/

section Character

variable {enclosure next : Enclosure} {c : Char} (rest : List Char)

/-- A character that is dropped leaves nothing behind but what it opens or closes. -/
theorem stripFrom_dropped (reads : enclosure.read c = (next, .dropped)) :
    stripFrom enclosure (c :: rest) = stripFrom next rest := by
  rw [stripFrom, reads]

/-- A character that opens an attribute selector is counted and not kept. -/
theorem stripFrom_opensAttribute (reads : enclosure.read c = (next, .opensAttribute)) :
    stripFrom enclosure (c :: rest) =
      { stripFrom next rest with attributes := (stripFrom next rest).attributes + 1 } := by
  rw [stripFrom, reads]

/-- A character that is kept stands in front of what is left of the rest. -/
theorem stripFrom_kept (reads : enclosure.read c = (next, .kept)) :
    stripFrom enclosure (c :: rest) =
      { stripFrom next rest with text := c :: (stripFrom next rest).text } := by
  rw [stripFrom, reads]

end Character

/-! ## Parts that are passed over -/

/-- A result with further attribute selectors. -/
def Stripped.withSquares (count : Nat) (stripped : Stripped) : Stripped :=
  { stripped with attributes := count + stripped.attributes }

/-- In an enclosure, parts of one kind are passed over: nothing of them is kept, their square groups
    are counted, and what is open behind them is what was open in front of them. -/
def Passes (enclosure : Enclosure) (α : Type) [Spelled α] : Prop :=
  ∀ (part : α) (rest : List Char), stripFrom enclosure (spelling part ++ rest) =
    (stripFrom enclosure rest).withSquares (squares part)

/-- In an enclosure, parts of one kind that end the text are passed over. -/
def PassesLast (enclosure : Enclosure) (α : Type) [Spelled α] : Prop :=
  ∀ part : α, stripFrom enclosure (spelling part) = { attributes := squares part }

/-- No string is open. -/
structure Enclosure.Outside (enclosure : Enclosure) : Prop where
  /-- There is no quote to wait for. -/
  quote : enclosure.quote = none
  /-- No backslash is in force. -/
  escaping : enclosure.escaping = false

/-- A quote opens a string. -/
theorem Enclosure.Outside.read_quote {enclosure : Enclosure} (outside : enclosure.Outside)
    {quote : Char} (isQuote : isQuote quote = true) :
    enclosure.read quote = ({ enclosure with quote := some quote }, .dropped) := by
  have quote : quote = '\x22' ∨ quote = '\x27' := by
    simpa only [Stylesheet.isQuote, decide_eq_true_eq] using isQuote
  simp only [Enclosure.read, outside.quote, if_pos quote]

/-- A character that is no quote neither opens a string nor closes one. -/
theorem isQuote_eq_false_iff (c : Char) : isQuote c = false ↔ ¬(c = '\x22' ∨ c = '\x27') := by
  rw [isQuote, decide_eq_false_iff_not]

/-- What the next character stands in, inside a string and behind a part of its body. -/
def Enclosure.inBody (enclosure : Enclosure) (quote : Char) (part : List Char) : Enclosure :=
  { enclosure with quote := some quote, escaping := decide ¬Even (backslashes part) }

/-- A character of a string is dropped, unless it is the quote that ends it. A backslash is in force
    behind an odd run of them. -/
theorem Enclosure.read_inBody (enclosure : Enclosure) {quote c : Char} {part : List Char}
    (inForce : ¬(c = quote ∧ Even (backslashes part))) :
    (enclosure.inBody quote part).read c = (enclosure.inBody quote (part ++ [c]), .dropped) := by
  simp only [read, inBody, backslashes_concat]
  by_cases even : Even (backslashes part)
  · have notQuote : c ≠ quote := fun same => inForce ⟨same, even⟩
    by_cases backslash : c = '\\' <;> simp [even, backslash, notQuote, Nat.even_add_one]
  · by_cases backslash : c = '\\' <;> simp [even, backslash, Nat.even_add_one]

/-- The body of a string is passed over. -/
theorem stripFrom_body (enclosure : Enclosure) {quote : Char} (front back rest : List Char)
    (guarded : Guarded quote (front ++ back)) :
    stripFrom (enclosure.inBody quote front) (back ++ rest) =
      stripFrom (enclosure.inBody quote (front ++ back)) rest := by
  induction back generalizing front with
  | nil => rw [List.nil_append, List.append_nil]
  | cons c back inductionHypothesis =>
    have inForce : ¬(c = quote ∧ Even (backslashes front)) := by
      rintro ⟨rfl, even⟩
      exact guarded front back rfl even
    rw [List.append_cons] at guarded ⊢
    rw [List.cons_append, stripFrom_dropped _ (enclosure.read_inBody inForce),
      inductionHypothesis (front ++ [c]) guarded]

section Passing

variable {enclosure : Enclosure} {Own : Char → Prop} {α Inner OpenInner : Type}
  [Spelled α] [Spelled Inner] [Spelled OpenInner]

/-- A list of parts is passed over if each part is. Behind one part everything is as it was in
    front of it, so the parts are passed over one after the other and their counts add up. -/
theorem passes_list (passes : Passes enclosure α) : Passes enclosure (List α) := by
  intro parts rest
  induction parts with
  | nil => simp [spelling, squares, Stripped.withSquares]
  | cons part others inductionHypothesis =>
    have split : spelling (part :: others) ++ rest =
        spelling part ++ (spelling others ++ rest) := by
      simp only [spelling, List.flatMap_cons, List.append_assoc]
    rw [split, passes, inductionHypothesis]
    simp only [Stripped.withSquares, squares, List.foldr_cons, Nat.add_assoc]

/-- The end of a text is passed over whether something unfinished stands there or not. -/
theorem passesLast_option (passes : PassesLast enclosure α) : PassesLast enclosure (Option α) := by
  rintro (_ | part)
  · rfl
  · exact passes part

/-- A quote opens a string, and the body behind it is passed over. -/
theorem Enclosure.Outside.stripFrom_quote (outside : enclosure.Outside) (literal : OpenLiteral)
    (rest : List Char) :
    stripFrom enclosure (literal.quote :: (literal.body ++ rest)) =
      stripFrom (enclosure.inBody literal.quote literal.body) rest := by
  have opened : ({ enclosure with quote := some literal.quote } : Enclosure) =
      enclosure.inBody literal.quote [] := by
    simp [inBody, backslashes, outside.escaping]
  rw [stripFrom_dropped _ (outside.read_quote literal.isQuote), opened]
  exact stripFrom_body enclosure [] literal.body rest literal.guarded

/-- A literal is passed over. The quote behind its body is in force, so it closes what the first one
    opened. -/
theorem Enclosure.Outside.passes_literal (outside : enclosure.Outside) :
    Passes enclosure Literal := by
  intro literal rest
  have noBackslash : literal.quote ≠ '\\' := by
    intro same
    exact absurd literal.isQuote (by rw [same]; decide)
  have ends : (enclosure.inBody literal.quote literal.body).read literal.quote =
      (enclosure, .dropped) := by
    have closed :
        ({ enclosure with quote := none, escaping := false } : Enclosure) = enclosure := by
      rw [← outside.quote, ← outside.escaping]
    simp [read, inBody, literal.ends, noBackslash, closed]
  simp only [spelling, List.cons_append, List.append_assoc, List.nil_append]
  rw [outside.stripFrom_quote literal.toOpenLiteral, stripFrom_dropped _ ends]
  simp [Stripped.withSquares, squares]

/-- A literal without its end is passed over to the end of the text. -/
theorem Enclosure.Outside.passesLast_literal (outside : enclosure.Outside) :
    PassesLast enclosure OpenLiteral := by
  intro literal
  have passed := outside.stripFrom_quote literal []
  rwa [List.append_nil] at passed

/-- Pieces are passed over where the characters that stand for themselves are dropped. -/
theorem Enclosure.Outside.passes_piece (outside : enclosure.Outside)
    (drops : ∀ c, Own c → enclosure.read c = (enclosure, .dropped))
    (passesInner : Passes enclosure Inner) : Passes enclosure (Piece Own Inner) := by
  intro piece rest
  cases piece with
  | char c own =>
    refine (stripFrom_dropped rest (drops c own)).trans ?_
    simp [Stripped.withSquares, squares]
  | literal literal => exact outside.passes_literal literal rest
  | group group => exact passesInner group rest

/-- Something unfinished is passed over where unfinished groups are. -/
theorem Enclosure.Outside.passesLast_unfinished (outside : enclosure.Outside)
    (passesInner : PassesLast enclosure OpenInner) :
    PassesLast enclosure (Unfinished OpenInner) := by
  intro part
  cases part with
  | literal literal => exact outside.passesLast_literal literal
  | group group => exact passesInner group

/-- A sequence that ends the text is passed over: first its pieces, then what is unfinished. -/
theorem passesLast_sequence (passes : Passes enclosure (Piece Own Inner))
    (passesLast : PassesLast enclosure (Unfinished OpenInner)) :
    PassesLast enclosure (Sequence Own Inner OpenInner) := by
  intro sequence
  refine (passes_list passes sequence.pieces _).trans ?_
  rw [passesLast_option passesLast]
  rfl

/-- An opening bracket is dropped, and counted if it is a square one. -/
structure Enclosure.Opens (outer inner : Enclosure) (opener : Char) : Prop where
  /-- It leads from the outer enclosure to the inner one. -/
  reads : outer.read opener = (inner, if opener = '[' then .opensAttribute else .dropped)

/-- An opening bracket leaves what is left of the rest inside it, and one more in the count if it is
    a square one. -/
theorem Enclosure.Opens.stripFrom {outer inner : Enclosure} {opener : Char}
    (opens : outer.Opens inner opener) (rest : List Char) :
    stripFrom outer (opener :: rest) =
      (Selector.stripFrom inner rest).withSquares (if opener = '[' then 1 else 0) := by
  have reads := opens.reads
  split at reads
  · rename_i square
    rw [stripFrom_opensAttribute rest reads, if_pos square, Nat.add_comm]
    rfl
  · rename_i paren
    rw [stripFrom_dropped rest reads, if_neg paren]
    simp [Stripped.withSquares]

/-- A group is passed over where its brackets lead in and out again. -/
theorem passes_group {outer inner : Enclosure} {opener closer : Char}
    (opens : outer.Opens inner opener) (closes : inner.read closer = (outer, .dropped))
    (passes : Passes inner (Piece Own Inner)) :
    Passes outer (Group opener closer Own Inner) := by
  intro group rest
  have split : spelling group ++ rest =
      opener :: (spelling group.pieces ++ closer :: rest) := by
    simp only [spelling, List.cons_append, List.append_assoc, List.nil_append]
  rw [split, opens.stripFrom, passes_list passes, stripFrom_dropped rest closes]
  simp only [Stripped.withSquares, squares, Nat.add_assoc]

/-- A group without its end is passed over where its bracket leads into an enclosure that passes
    over its contents. -/
theorem passesLast_openGroup {outer inner : Enclosure} {opener : Char}
    (opens : outer.Opens inner opener)
    (passes : PassesLast inner (Sequence Own Inner OpenInner)) :
    PassesLast outer (OpenGroup opener Own Inner OpenInner) := by
  intro group
  refine (opens.stripFrom _).trans ?_
  rw [passes]
  rfl

end Passing

/-! ## The three levels -/

/-- Where no groups stand, all of them are passed over. -/
theorem passes_empty (enclosure : Enclosure) : Passes enclosure Empty := fun part => part.elim

/-- Where no unfinished groups stand, all of them are passed over. -/
theorem passesLast_empty (enclosure : Enclosure) : PassesLast enclosure Empty :=
  fun part => part.elim

section Square

variable (paren : Bool)

/-- A square bracket opens a group outside parentheses and inside them. -/
theorem opens_square : Enclosure.Opens { paren } { square := true, paren } '[' := ⟨rfl⟩

/-- In a square group everything up to its end is passed over, brackets included. -/
theorem passes_inSquare : Passes { square := true, paren } (Piece InSquare Empty) := by
  refine Enclosure.Outside.passes_piece ⟨rfl, rfl⟩ (fun c own => ?_) (passes_empty _)
  obtain ⟨noQuote, stays⟩ := own
  simp [Enclosure.read, (isQuote_eq_false_iff c).mp noQuote, stays]

/-- Square groups are passed over outside parentheses and inside them. -/
theorem passes_square : Passes { paren } Square :=
  passes_group (opens_square paren) rfl (passes_inSquare paren)

/-- A square group without its end is passed over. -/
theorem passesLast_openSquare : PassesLast { paren } OpenSquare :=
  passesLast_openGroup (opens_square paren)
    (passesLast_sequence (passes_inSquare paren)
      (Enclosure.Outside.passesLast_unfinished ⟨rfl, rfl⟩ (passesLast_empty _)))

end Square

/-- A parenthesis opens a group outside brackets. -/
theorem opens_paren : Enclosure.Opens {} { paren := true } '(' := ⟨rfl⟩

/-- In a paren group characters, literals and square groups are passed over. -/
theorem passes_inParen : Passes { paren := true } (Piece InParen Square) := by
  refine Enclosure.Outside.passes_piece ⟨rfl, rfl⟩ (fun c own => ?_) (passes_square true)
  obtain ⟨noQuote, noSquare, stays⟩ := own
  simp [Enclosure.read, (isQuote_eq_false_iff c).mp noQuote, noSquare, stays]

/-- Paren groups are passed over. -/
theorem passes_paren : Passes {} Paren := passes_group opens_paren rfl passes_inParen

/-- A paren group without its end is passed over, also where a square group in it has none. -/
theorem passesLast_openParen : PassesLast {} OpenParen :=
  passesLast_openGroup opens_paren
    (passesLast_sequence passes_inParen
      (Enclosure.Outside.passesLast_unfinished ⟨rfl, rfl⟩ (passesLast_openSquare true)))

/-! ## Whole preludes -/

/-- The character of a piece that stands for itself. -/
def Piece.plain {Own : Char → Prop} {Inner : Type} : Piece Own Inner → List Char
  | char c _ => [c]
  | literal _ => []
  | group _ => []

/-- The characters of a reading that stand for themselves outside groups. -/
def Reading.plain (reading : Reading) : List Char := reading.pieces.flatMap Piece.plain

/-- Outside brackets a character that stands for itself is kept. -/
theorem read_plain {c : Char} (plain : Plain c) : Enclosure.read {} c = ({}, .kept) := by
  obtain ⟨noQuote, noSquare, noParen⟩ := plain
  simp [Enclosure.read, (isQuote_eq_false_iff c).mp noQuote, noSquare, noParen]

/-- Outside brackets a piece leaves its own character and its count. -/
theorem strip_piece (piece : Piece Plain (Square ⊕ Paren)) (rest : List Char) :
    strip (spelling piece ++ rest) =
      { text := piece.plain ++ (strip rest).text
        attributes := squares piece + (strip rest).attributes } := by
  cases piece with
  | char c plain =>
    refine (stripFrom_kept rest (read_plain plain)).trans ?_
    simp [Piece.plain, squares, strip]
  | literal literal => exact Enclosure.Outside.passes_literal ⟨rfl, rfl⟩ literal rest
  | group group =>
    cases group with
    | inl square => exact passes_square false square rest
    | inr paren => exact passes_paren paren rest

/-- A reading leaves its plain characters, and the number of square groups that open in it. -/
theorem strip_spelling (reading : Reading) :
    strip (spelling reading) = { text := reading.plain, attributes := squares reading } := by
  obtain ⟨pieces, tail⟩ := reading
  induction pieces with
  | nil =>
    have passesGroup : PassesLast {} (OpenSquare ⊕ OpenParen) := by
      rintro (square | paren)
      · exact passesLast_openSquare false square
      · exact passesLast_openParen paren
    have last := passesLast_option (Enclosure.Outside.passesLast_unfinished ⟨rfl, rfl⟩ passesGroup)
    refine (last tail).trans ?_
    simp [Reading.plain, squares]
  | cons piece others inductionHypothesis =>
    have split : spelling (⟨piece :: others, tail⟩ : Reading) =
        spelling piece ++ spelling (⟨others, tail⟩ : Reading) := by
      simp only [spelling, List.flatMap_cons, List.append_assoc]
    rw [split, strip_piece, inductionHypothesis]
    simp only [Reading.plain, squares, List.flatMap_cons, List.foldr_cons, Nat.add_assoc]

/-- Plain characters are kept as they are. -/
theorem strip_of_plain {text : List Char} (plain : ∀ c ∈ text, Plain c) :
    strip text = { text } := by
  induction text with
  | nil => rfl
  | cons c rest inductionHypothesis =>
    rw [List.forall_mem_cons] at plain
    have kept : stripFrom {} rest = { text := rest } := inductionHypothesis plain.2
    rw [strip, stripFrom_kept rest (read_plain plain.1), kept]

/-- Plain characters of a reading are plain. -/
theorem plain_of_mem_plain {reading : Reading} {c : Char} (member : c ∈ reading.plain) :
    Plain c := by
  obtain ⟨piece, -, inPiece⟩ := List.mem_flatMap.mp member
  cases piece with
  | char own plain => exact List.mem_singleton.mp inPiece ▸ plain
  | literal literal => cases inPiece
  | group group => cases inPiece

/-- Taking bracketed parts out, by the grammar. Every text has exactly one reading as plain
    characters, literals, square groups and paren groups, perhaps with something unfinished at its
    end. What is left of the text are the plain characters of its reading, in order, and the number
    of attribute selectors is that of the square groups that open in it. Taking bracketed parts out
    of what is left changes nothing and counts nothing. -/
theorem strip_by_reading (text : List Char) :
    (∃! reading : Reading, spelling reading = text) ∧
    (∀ reading : Reading, spelling reading = text →
      strip text = { text := reading.plain, attributes := squares reading }) ∧
    strip (strip text).text = { text := (strip text).text, attributes := 0 } := by
  refine ⟨existsUnique_reading text, ?_, ?_⟩
  · rintro reading rfl
    exact strip_spelling reading
  · obtain ⟨reading, rfl, -⟩ := existsUnique_reading text
    rw [strip_spelling]
    exact strip_of_plain fun c member => plain_of_mem_plain member

/-- A paren group without its end, in which a square group is opened, and a stray bracket. -/
example : strip ".a]:is([b) c".toList = { text := ".a]:is".toList, attributes := 1 } := by
  decide

end SelectorLint.Selector
