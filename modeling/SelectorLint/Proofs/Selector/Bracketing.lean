import SelectorLint.Proofs.Selector.StringEnds

/-!
# A grammar of bracketed preludes

A prelude is a sequence of pieces: characters that stand for themselves, quoted literals, square
groups and paren groups. Inside a group there are pieces again, with other characters that stand
for themselves and with fewer groups: a paren group may hold square groups, a square group holds
no group at all. The last thing of a prelude may lack its end; it then runs to the end of the text.

The grammar does not mention how a prelude is read. Pieces carry the proof of their own form. Main
statement: every text is the spelling of exactly one reading. At each level the first character of a
text tells which kind of piece begins there, and what begins there ends in only one way.
-/

namespace SelectorLint.Selector

open Stylesheet

/-! ## Literals -/

/-- Every quote of one kind in a text stands behind an odd run of backslashes. -/
def Guarded (quote : Char) (body : List Char) : Prop :=
  ∀ front back, body = front ++ quote :: back → ¬Even (backslashes front)

/-- A quoted text without its end. -/
structure OpenLiteral where
  /-- The quote that opens it. -/
  quote : Char
  /-- What stands behind the quote. -/
  body : List Char
  /-- It opens with a quote. -/
  isQuote : isQuote quote = true
  /-- No quote in it ends it. -/
  guarded : Guarded quote body

/-- A quoted text. -/
structure Literal extends OpenLiteral where
  /-- The quote behind the body is in force. -/
  ends : Even (backslashes body)

/-! ## Pieces and groups -/

/-- Characters that stand for themselves outside groups. -/
def Plain (c : Char) : Prop := isQuote c = false ∧ c ≠ '[' ∧ c ≠ '('

/-- Characters that stand for themselves in a square group. -/
def InSquare (c : Char) : Prop := isQuote c = false ∧ c ≠ ']'

/-- Characters that stand for themselves in a paren group. -/
def InParen (c : Char) : Prop := isQuote c = false ∧ c ≠ '[' ∧ c ≠ ')'

/-- A piece of a text, where some characters stand for themselves and some groups may occur. -/
inductive Piece (Own : Char → Prop) (Inner : Type) where
  /-- A character that stands for itself. -/
  | char (c : Char) (own : Own c)
  /-- A quoted text. -/
  | literal (literal : Literal)
  /-- A group. -/
  | group (group : Inner)

/-- The last thing of a text, without its end. -/
inductive Unfinished (OpenInner : Type) where
  /-- A quoted text. -/
  | literal (literal : OpenLiteral)
  /-- A group. -/
  | group (group : OpenInner)

/-- Pieces, perhaps with something unfinished behind them. -/
structure Sequence (Own : Char → Prop) (Inner OpenInner : Type) where
  /-- The pieces. -/
  pieces : List (Piece Own Inner)
  /-- What is unfinished. -/
  tail : Option (Unfinished OpenInner)

/-- Pieces between two brackets. -/
structure Group (opener closer : Char) (Own : Char → Prop) (Inner : Type) where
  /-- The pieces between the brackets. -/
  pieces : List (Piece Own Inner)

/-- What stands behind an opening bracket without a closing one. -/
structure OpenGroup (opener : Char) (Own : Char → Prop) (Inner OpenInner : Type) where
  /-- What stands behind the bracket. -/
  contents : Sequence Own Inner OpenInner

/-- A square group holds characters and literals. -/
abbrev Square := Group '[' ']' InSquare Empty

/-- A square group without its end. -/
abbrev OpenSquare := OpenGroup '[' InSquare Empty Empty

/-- A paren group holds characters, literals and square groups. -/
abbrev Paren := Group '(' ')' InParen Square

/-- A paren group without its end. -/
abbrev OpenParen := OpenGroup '(' InParen Square OpenSquare

/-- A whole prelude. -/
abbrev Reading := Sequence Plain (Square ⊕ Paren) (OpenSquare ⊕ OpenParen)

/-! ## Spelling -/

/-- Parts of a prelude are spelled with characters and open some square groups. -/
class Spelled (α : Type) where
  /-- The characters of a part. -/
  spelling : α → List Char
  /-- The number of square groups that open in a part. -/
  squares : α → Nat

export Spelled (spelling squares)

section Spelling

variable {Own : Char → Prop} {α β Inner OpenInner : Type}
  [Spelled α] [Spelled β] [Spelled Inner] [Spelled OpenInner]

instance : Spelled Empty := ⟨Empty.elim, Empty.elim⟩

instance : Spelled (α ⊕ β) := ⟨Sum.elim spelling spelling, Sum.elim squares squares⟩

instance : Spelled (List α) := ⟨(·.flatMap spelling), (·.foldr (squares · + ·) 0)⟩

instance : Spelled (Option α) := ⟨(·.elim [] spelling), (·.elim 0 squares)⟩

instance : Spelled OpenLiteral := ⟨fun literal => literal.quote :: literal.body, fun _ => 0⟩

instance : Spelled Literal :=
  ⟨fun literal => literal.quote :: (literal.body ++ [literal.quote]), fun _ => 0⟩

instance : Spelled (Piece Own Inner) where
  spelling
    | .char c _ => [c]
    | .literal literal => spelling literal
    | .group group => spelling group
  squares
    | .char _ _ => 0
    | .literal literal => squares literal
    | .group group => squares group

instance : Spelled (Unfinished OpenInner) where
  spelling
    | .literal literal => spelling literal
    | .group group => spelling group
  squares
    | .literal literal => squares literal
    | .group group => squares group

instance : Spelled (Sequence Own Inner OpenInner) where
  spelling sequence := spelling sequence.pieces ++ spelling sequence.tail
  squares sequence := squares sequence.pieces + squares sequence.tail

instance {opener closer : Char} : Spelled (Group opener closer Own Inner) where
  spelling group := opener :: (spelling group.pieces ++ [closer])
  squares group := (if opener = '[' then 1 else 0) + squares group.pieces

instance {opener : Char} : Spelled (OpenGroup opener Own Inner OpenInner) where
  spelling group := opener :: spelling group.contents
  squares group := (if opener = '[' then 1 else 0) + squares group.contents

end Spelling

/-! ## What begins a text -/

/-- What begins a text: something with its end, and the rest of the text behind it, or something
    without its end. -/
inductive Beginning (α β : Type) where
  /-- Something with its end. -/
  | closed (value : α) (rest : List Char)
  /-- Something without its end. -/
  | opened (value : β)

namespace Beginning

variable {α β γ δ : Type} [Spelled α] [Spelled β] [Spelled γ] [Spelled δ]

/-- The whole text. -/
def text : Beginning α β → List Char
  | closed value rest => spelling value ++ rest
  | opened value => spelling value

/-- The same beginning, taken as something else. -/
def map (close : α → γ) (leave : β → δ) : Beginning α β → Beginning γ δ
  | closed value rest => .closed (close value) rest
  | opened value => .opened (leave value)

/-- What is read in one way is read in one way as something else of the same spelling, if that is
    all it can be. -/
theorem existsUnique_map (close : α → γ) (leave : β → δ) {whole : List Char}
    (closeSpelled : ∀ value, spelling (close value) = spelling value)
    (leaveSpelled : ∀ value, spelling (leave value) = spelling value)
    (only : ∀ other : Beginning γ δ, other.text = whole →
      ∃ beginning : Beginning α β, other = beginning.map close leave)
    (unique : ∃! beginning : Beginning α β, beginning.text = whole) :
    ∃! other : Beginning γ δ, other.text = whole := by
  have same (beginning : Beginning α β) : (beginning.map close leave).text = beginning.text := by
    cases beginning with
    | closed value rest => exact congrArg (· ++ rest) (closeSpelled value)
    | opened value => exact leaveSpelled value
  obtain ⟨beginning, isWhole, isOnly⟩ := unique
  refine ⟨beginning.map close leave, (same beginning).trans isWhole, fun other otherWhole => ?_⟩
  obtain ⟨another, rfl⟩ := only other otherWhole
  rw [isOnly another ((same another).symm.trans otherWhole)]

end Beginning

/-- Quotes stay guarded with one more character unless it is such a quote in force. -/
theorem Guarded.concat {quote : Char} {body : List Char} (guarded : Guarded quote body) {c : Char}
    (inForce : ¬(c = quote ∧ Even (backslashes body))) : Guarded quote (body ++ [c]) := by
  intro front back split even
  rcases List.eq_nil_or_concat' back with rfl | ⟨inner, last, rfl⟩
  · obtain ⟨rfl, same⟩ := List.append_inj' split rfl
    exact inForce ⟨List.singleton_inj.mp same, even⟩
  · rw [← List.cons_append, ← List.append_assoc] at split
    exact guarded front inner (List.append_inj' split rfl).1 even

/-- Behind a quote, a text has a first quote in force or none. -/
theorem exists_literal {quote : Char} (front back : List Char) (guarded : Guarded quote front) :
    (∃ body rest, Guarded quote body ∧ Even (backslashes body) ∧
      front ++ back = body ++ quote :: rest) ∨ Guarded quote (front ++ back) := by
  induction back generalizing front with
  | nil => exact .inr (by rwa [List.append_nil])
  | cons c rest inductionHypothesis =>
    by_cases inForce : c = quote ∧ Even (backslashes front)
    · obtain ⟨rfl, even⟩ := inForce
      exact .inl ⟨front, rest, guarded, even, rfl⟩
    · rw [List.append_cons]
      exact inductionHypothesis (front ++ [c]) (guarded.concat inForce)

/-- A guarded part of a text reaches at most up to a quote in force. -/
theorem Guarded.isPrefix {quote : Char} {part more body rest : List Char}
    (guarded : Guarded quote part) (even : Even (backslashes body))
    (same : part ++ more = body ++ quote :: rest) : part <+: body := by
  rcases List.append_eq_append_iff.mp same with ⟨further, reached, -⟩ | ⟨beyond, longer, split⟩
  · exact ⟨further, reached.symm⟩
  · cases beyond with
    | nil => exact ⟨[], by rw [longer, List.append_nil, List.append_nil]⟩
    | cons c others =>
      obtain ⟨rfl, -⟩ := List.cons_eq_cons.mp split
      exact absurd even (guarded body others longer)

/-- A quote begins one literal, with its end or without. -/
theorem existsUnique_literal {quote : Char} (isQuote : isQuote quote = true) (text : List Char) :
    ∃! beginning : Beginning Literal OpenLiteral, beginning.text = quote :: text := by
  have nothing : Guarded quote [] := by
    intro front back split
    simp at split
  rcases exists_literal [] text nothing with ⟨body, rest, guarded, even, split⟩ | guarded
  · rw [List.nil_append] at split
    refine ⟨.closed ⟨⟨quote, body, isQuote, guarded⟩, even⟩ rest, ?_, ?_⟩
    · simp [Beginning.text, spelling, split]
    rintro (⟨⟨⟨otherQuote, other, _, otherGuarded⟩, otherEven⟩, otherRest⟩ |
      ⟨otherQuote, other, _, otherGuarded⟩) same
    · simp only [Beginning.text, spelling, List.cons_append, List.append_assoc, List.nil_append,
        split] at same
      obtain ⟨rfl, same⟩ := List.cons_eq_cons.mp same
      have short := otherGuarded.isPrefix even same
      have long := guarded.isPrefix otherEven same.symm
      obtain rfl := short.eq_of_length_le long.length_le
      obtain rfl := (List.cons_eq_cons.mp (List.append_cancel_left same)).2
      rfl
    · simp only [Beginning.text, spelling, split] at same
      obtain ⟨rfl, rfl⟩ := List.cons_eq_cons.mp same
      exact absurd even (otherGuarded body rest rfl)
  · rw [List.nil_append] at guarded
    refine ⟨.opened ⟨quote, text, isQuote, guarded⟩, rfl, ?_⟩
    rintro (⟨⟨⟨otherQuote, other, _, otherGuarded⟩, otherEven⟩, otherRest⟩ |
      ⟨otherQuote, other, _, otherGuarded⟩) same
    · simp only [Beginning.text, spelling, List.cons_append, List.append_assoc,
        List.nil_append] at same
      obtain ⟨rfl, rfl⟩ := List.cons_eq_cons.mp same
      exact absurd otherEven (guarded other otherRest rfl)
    · obtain ⟨rfl, rfl⟩ := List.cons_eq_cons.mp same
      rfl

/-! ## One level of the grammar -/

/-- A level of the grammar tells its pieces apart by their first characters: quotes, characters that
    stand for themselves, and the rest, each of which begins one group. Closing characters begin no
    piece. -/
structure Level (Own Closes : Char → Prop) (Inner OpenInner : Type)
    [Spelled Inner] [Spelled OpenInner] : Prop where
  /-- Characters that stand for themselves are no quotes and do not close. -/
  own : ∀ c, Own c → isQuote c = false ∧ ¬Closes c
  /-- Quotes do not close. -/
  quotes : ∀ c, isQuote c = true → ¬Closes c
  /-- A group begins with a character of its own kind. -/
  begins : ∀ group : Beginning Inner OpenInner, ∃ c rest, group.text = c :: rest ∧
    isQuote c = false ∧ ¬Closes c ∧ ¬Own c
  /-- Such a character begins one group. -/
  groups : ∀ c rest, isQuote c = false → ¬Closes c → ¬Own c →
    ∃! group : Beginning Inner OpenInner, group.text = c :: rest

/-- How pieces in a row end: in front of a closing character, or with the text. -/
inductive Ending (Closes : Char → Prop) (β : Type) where
  /-- In front of a closing character, with the rest of the text behind it. -/
  | closer (c : Char) (closes : Closes c) (rest : List Char)
  /-- With the text, which may end with something unfinished. -/
  | atEnd (tail : Option β)

/-- The characters from the end of the pieces on. -/
def Ending.text {Closes : Char → Prop} {β : Type} [Spelled β] : Ending Closes β → List Char
  | closer c _ rest => c :: rest
  | atEnd tail => spelling tail

section Level

variable {Own Closes : Char → Prop} {Inner OpenInner : Type} [Spelled Inner] [Spelled OpenInner]

/-- A row of pieces with its ending begins with a piece, or is only something unfinished. -/
def Beginning.Heads (first : Beginning (Piece Own Inner) (Unfinished OpenInner))
    (row : List (Piece Own Inner) × Ending Closes (Unfinished OpenInner)) : Prop :=
  match first with
  | closed piece behind =>
    ∃ others ending, row = (piece :: others, ending) ∧ spelling others ++ ending.text = behind
  | opened tail => row = ([], .atEnd (some tail))

/-- A row that a beginning heads spells the same text. -/
theorem Beginning.Heads.text_eq {first : Beginning (Piece Own Inner) (Unfinished OpenInner)}
    {row : List (Piece Own Inner) × Ending Closes (Unfinished OpenInner)}
    (heads : first.Heads row) : spelling row.1 ++ row.2.text = first.text := by
  cases first with
  | closed piece behind =>
    obtain ⟨others, ending, rfl, rfl⟩ := heads
    simp only [spelling, Beginning.text, List.flatMap_cons, List.append_assoc]
  | opened tail =>
    obtain rfl := heads
    rfl

/-- A row of pieces is empty, at the end of the text or in front of a closing character, or
    something begins it. -/
theorem row_cases {row : List (Piece Own Inner) × Ending Closes (Unfinished OpenInner)}
    {text : List Char} (isText : spelling row.1 ++ row.2.text = text) :
    (text = [] ∧ row = ([], .atEnd none)) ∨
    (∃ c closes rest, text = c :: rest ∧ row = ([], .closer c closes rest)) ∨
    ∃ first : Beginning (Piece Own Inner) (Unfinished OpenInner),
      first.text = text ∧ first.Heads row := by
  match row, isText with
  | ([], .atEnd none), isText => exact .inl ⟨isText.symm, rfl⟩
  | ([], .closer c closes rest), isText => exact .inr (.inl ⟨c, closes, rest, isText.symm, rfl⟩)
  | ([], .atEnd (some tail)), isText => exact .inr (.inr ⟨.opened tail, isText, rfl⟩)
  | (piece :: others, ending), isText =>
    have heads : (Beginning.closed piece (spelling others ++ ending.text) :
        Beginning (Piece Own Inner) (Unfinished OpenInner)).Heads (piece :: others, ending) :=
      ⟨others, ending, rfl, rfl⟩
    exact .inr (.inr ⟨_, heads.text_eq.symm.trans isText, heads⟩)

namespace Level

/-- The first character of a piece tells its kind: it stands for itself, it is a quote, or it begins
    a group. -/
theorem piece_cases (level : Level Own Closes Inner OpenInner) {c : Char} {rest : List Char}
    {piece : Beginning (Piece Own Inner) (Unfinished OpenInner)} (isText : piece.text = c :: rest) :
    (∃ own, piece = .closed (.char c own) rest) ∨
    (isQuote c = true ∧ ∃ literal : Beginning Literal OpenLiteral,
      piece = literal.map .literal .literal) ∨
    (isQuote c = false ∧ ¬Closes c ∧ ¬Own c ∧ ∃ group : Beginning Inner OpenInner,
      piece = group.map .group .group) := by
  have ofGroup (group : Beginning Inner OpenInner) (isText : group.text = c :: rest) :
      isQuote c = false ∧ ¬Closes c ∧ ¬Own c := by
    obtain ⟨first, others, begins, facts⟩ := level.begins group
    obtain ⟨rfl, -⟩ := List.cons_eq_cons.mp (begins.symm.trans isText)
    exact facts
  match piece, isText with
  | .closed (.char _ own) _, isText =>
    obtain ⟨rfl, rfl⟩ := List.cons_eq_cons.mp isText
    exact .inl ⟨own, rfl⟩
  | .closed (.literal literal) behind, isText =>
    obtain ⟨rfl, -⟩ := List.cons_eq_cons.mp isText
    exact .inr (.inl ⟨literal.isQuote, .closed literal behind, rfl⟩)
  | .opened (.literal literal), isText =>
    obtain ⟨rfl, -⟩ := List.cons_eq_cons.mp isText
    exact .inr (.inl ⟨literal.isQuote, .opened literal, rfl⟩)
  | .closed (.group group) behind, isText =>
    obtain ⟨noQuote, stays, notOwn⟩ := ofGroup (.closed group behind) isText
    exact .inr (.inr ⟨noQuote, stays, notOwn, .closed group behind, rfl⟩)
  | .opened (.group group), isText =>
    obtain ⟨noQuote, stays, notOwn⟩ := ofGroup (.opened group) isText
    exact .inr (.inr ⟨noQuote, stays, notOwn, .opened group, rfl⟩)

/-- A piece is not empty and does not begin with a closing character. -/
theorem piece_begins (level : Level Own Closes Inner OpenInner)
    (piece : Beginning (Piece Own Inner) (Unfinished OpenInner)) :
    ∃ c rest, piece.text = c :: rest ∧ ¬Closes c := by
  match piece with
  | .closed (.char c own) behind => exact ⟨c, behind, rfl, (level.own c own).2⟩
  | .closed (.literal literal) _ => exact ⟨_, _, rfl, level.quotes _ literal.isQuote⟩
  | .opened (.literal literal) => exact ⟨_, _, rfl, level.quotes _ literal.isQuote⟩
  | .closed (.group group) behind =>
    obtain ⟨c, rest, isText, -, stays, -⟩ := level.begins (.closed group behind)
    exact ⟨c, rest, isText, stays⟩
  | .opened (.group group) =>
    obtain ⟨c, rest, isText, -, stays, -⟩ := level.begins (.opened group)
    exact ⟨c, rest, isText, stays⟩

/-- A character that does not close begins one piece. -/
theorem existsUnique_piece (level : Level Own Closes Inner OpenInner) {c : Char}
    (stays : ¬Closes c) (rest : List Char) :
    ∃! piece : Beginning (Piece Own Inner) (Unfinished OpenInner), piece.text = c :: rest := by
  cases quoted : isQuote c with
  | true =>
    refine Beginning.existsUnique_map .literal .literal (fun _ => rfl) (fun _ => rfl)
      (fun piece isText => ?_) (existsUnique_literal quoted rest)
    rcases level.piece_cases isText with ⟨own, -⟩ | ⟨-, literal, rfl⟩ | ⟨noQuote, -⟩
    · exact absurd quoted (by simp [(level.own c own).1])
    · exact ⟨literal, rfl⟩
    · exact absurd quoted (by simp [noQuote])
  | false =>
    by_cases own : Own c
    · refine ⟨.closed (.char c own) rest, rfl, fun piece isText => ?_⟩
      rcases level.piece_cases isText with ⟨-, rfl⟩ | ⟨isQuote, -⟩ | ⟨-, -, notOwn, -⟩
      · rfl
      · exact absurd isQuote (by simp [quoted])
      · exact absurd own notOwn
    · refine Beginning.existsUnique_map .group .group (fun _ => rfl) (fun _ => rfl)
        (fun piece isText => ?_) (level.groups c rest quoted stays own)
      rcases level.piece_cases isText with ⟨isOwn, -⟩ | ⟨isQuote, -⟩ | ⟨-, -, -, group, rfl⟩
      · exact absurd isOwn own
      · exact absurd isQuote (by simp [quoted])
      · exact ⟨group, rfl⟩

/-- A piece does not begin where the text ends or in front of a closing character. -/
theorem piece_text_ne (level : Level Own Closes Inner OpenInner) {text : List Char}
    (stops : ∀ c rest, text = c :: rest → Closes c)
    (piece : Beginning (Piece Own Inner) (Unfinished OpenInner)) : piece.text ≠ text := by
  intro isText
  obtain ⟨c, rest, begins, stays⟩ := level.piece_begins piece
  exact stays (stops c rest (isText.symm.trans begins))

/-- Every text is in one way a row of pieces up to its first closing character or its end. -/
theorem existsUnique_pieces (level : Level Own Closes Inner OpenInner) (text : List Char) :
    ∃! row : List (Piece Own Inner) × Ending Closes (Unfinished OpenInner),
      spelling row.1 ++ row.2.text = text := by
  -- Each piece takes at least one character, so the rest behind the first piece is shorter.
  induction shorter : text.length using Nat.strong_induction_on generalizing text with
  | _ length inductionHypothesis =>
  cases text with
  | nil =>
    refine ⟨([], .atEnd none), rfl, fun row isText => ?_⟩
    rcases row_cases isText with ⟨-, isEmpty⟩ | ⟨_, _, _, isCons, -⟩ | ⟨piece, begins, -⟩
    · exact isEmpty
    · cases isCons
    · exact absurd begins (level.piece_text_ne (fun _ _ isCons => by cases isCons) piece)
  | cons c rest =>
    by_cases closes : Closes c
    · have stops (first : Char) (others : List Char) (same : c :: rest = first :: others) :
          Closes first := (List.cons_eq_cons.mp same).1 ▸ closes
      refine ⟨([], .closer c closes rest), rfl, fun row isText => ?_⟩
      rcases row_cases isText with ⟨isNil, -⟩ | ⟨_, _, _, same, rfl⟩ | ⟨piece, begins, -⟩
      · cases isNil
      · cases same
        rfl
      · exact absurd begins (level.piece_text_ne stops piece)
    · obtain ⟨first, isText, isOnly⟩ := level.existsUnique_piece closes rest
      have headed : ∃! row : List (Piece Own Inner) × Ending Closes (Unfinished OpenInner),
          first.Heads row := by
        cases first with
        | opened tail => exact ⟨_, rfl, fun _ same => same⟩
        | closed piece behind =>
          have isShorter : behind.length < length := by
            obtain ⟨c, others, begins, -⟩ := level.piece_begins (.closed piece [])
            have total := congrArg List.length isText
            have positive := congrArg List.length begins
            simp only [Beginning.text, List.length_append, List.length_cons, List.length_nil]
              at total positive shorter
            omega
          obtain ⟨⟨others, ending⟩, isBehind, onlyBehind⟩ :=
            inductionHypothesis behind.length isShorter behind rfl
          refine ⟨(piece :: others, ending), ⟨others, ending, rfl, isBehind⟩, ?_⟩
          rintro _ ⟨further, otherEnding, rfl, behindToo⟩
          cases onlyBehind (further, otherEnding) behindToo
          rfl
      obtain ⟨row, heads, onlyHeaded⟩ := headed
      refine ⟨row, heads.text_eq.trans isText, fun other otherText => ?_⟩
      rcases row_cases otherText with
        ⟨isNil, -⟩ | ⟨_, closesToo, _, same, -⟩ | ⟨piece, begins, headsToo⟩
      · cases isNil
      · cases same
        exact absurd closesToo closes
      · exact onlyHeaded other (isOnly piece begins ▸ headsToo)

/-- An opening bracket begins one group, if the closing bracket is what closes the level inside. -/
theorem existsUnique_group {closer : Char} (level : Level Own (· = closer) Inner OpenInner)
    (opener : Char) (rest : List Char) :
    ∃! group : Beginning (Group opener closer Own Inner) (OpenGroup opener Own Inner OpenInner),
      group.text = opener :: rest := by
  obtain ⟨⟨pieces, ending⟩, isRest, isOnly⟩ := level.existsUnique_pieces rest
  -- A group of either kind is a row of pieces with its ending.
  have ofClosed (group : Group opener closer Own Inner) (behind : List Char)
      (isText : spelling group ++ behind = opener :: rest) :
      (pieces, ending) = (group.pieces, .closer closer rfl behind) := by
    refine (isOnly _ ?_).symm
    simpa [Ending.text, spelling] using isText
  have ofOpen (group : OpenGroup opener Own Inner OpenInner)
      (isText : spelling group = opener :: rest) :
      (pieces, ending) = (group.contents.pieces, .atEnd group.contents.tail) := by
    refine (isOnly _ ?_).symm
    simpa [Ending.text, spelling] using isText
  cases ending with
  | closer c closes behind =>
    obtain rfl := closes
    refine ⟨.closed ⟨pieces⟩ behind, ?_, ?_⟩
    · simpa [Beginning.text, Ending.text, spelling] using isRest
    rintro (⟨group, otherBehind⟩ | group) isText
    · cases ofClosed group otherBehind isText
      rfl
    · cases ofOpen group isText
  | atEnd tail =>
    refine ⟨.opened ⟨⟨pieces, tail⟩⟩, ?_, ?_⟩
    · simpa [Beginning.text, Ending.text, spelling] using isRest
    rintro (⟨group, otherBehind⟩ | group) isText
    · cases ofClosed group otherBehind isText
    · cases ofOpen group isText
      rfl

end Level

end Level

/-! ## The three levels -/

/-- A group begins with its opening bracket. -/
theorem exists_text_group {opener closer : Char} {Own : Char → Prop} {Inner OpenInner : Type}
    [Spelled Inner] [Spelled OpenInner]
    (group : Beginning (Group opener closer Own Inner) (OpenGroup opener Own Inner OpenInner)) :
    ∃ rest, group.text = opener :: rest := by
  cases group <;> exact ⟨_, rfl⟩

/-- Inside square brackets. -/
theorem level_square : Level InSquare (· = ']') Empty Empty where
  own c own := own
  quotes c isQuote := by
    rintro rfl
    exact absurd isQuote (by decide)
  begins group := by
    cases group with
    | closed value _ => exact value.elim
    | opened value => exact value.elim
  groups c _ noQuote stays notOwn := absurd ⟨noQuote, stays⟩ notOwn

/-- Inside parentheses. -/
theorem level_paren : Level InParen (· = ')') Square OpenSquare where
  own c own := ⟨own.1, own.2.2⟩
  quotes c isQuote := by
    rintro rfl
    exact absurd isQuote (by decide)
  begins group := by
    obtain ⟨rest, isText⟩ := exists_text_group group
    exact ⟨'[', rest, isText, by decide, by decide, fun own => own.2.1 rfl⟩
  groups c rest noQuote stays notOwn := by
    obtain rfl : c = '[' := by
      by_contra other
      exact notOwn ⟨noQuote, other, stays⟩
    exact level_square.existsUnique_group '[' rest

/-- Outside brackets a group is a square or a paren group, as its first character tells. -/
theorem group_cases (group : Beginning (Square ⊕ Paren) (OpenSquare ⊕ OpenParen)) :
    (∃ rest, group.text = '[' :: rest ∧
      ∃ square : Beginning Square OpenSquare, group = square.map .inl .inl) ∨
    (∃ rest, group.text = '(' :: rest ∧
      ∃ paren : Beginning Paren OpenParen, group = paren.map .inr .inr) := by
  match group with
  | .closed (.inl square) behind => exact .inl ⟨_, rfl, .closed square behind, rfl⟩
  | .opened (.inl square) => exact .inl ⟨_, rfl, .opened square, rfl⟩
  | .closed (.inr paren) behind => exact .inr ⟨_, rfl, .closed paren behind, rfl⟩
  | .opened (.inr paren) => exact .inr ⟨_, rfl, .opened paren, rfl⟩

/-- Outside brackets, where nothing closes. -/
theorem level_outside :
    Level Plain (fun _ => False) (Square ⊕ Paren) (OpenSquare ⊕ OpenParen) where
  own c own := ⟨own.1, not_false⟩
  quotes c _ := not_false
  begins group := by
    rcases group_cases group with ⟨rest, isText, -⟩ | ⟨rest, isText, -⟩
    · exact ⟨'[', rest, isText, by decide, not_false, fun own => own.2.1 rfl⟩
    · exact ⟨'(', rest, isText, by decide, not_false, fun own => own.2.2 rfl⟩
  groups c rest noQuote _ notOwn := by
    by_cases square : c = '['
    · subst square
      refine Beginning.existsUnique_map .inl .inl (fun _ => rfl) (fun _ => rfl)
        (fun group isText => ?_) (level_square.existsUnique_group '[' rest)
      rcases group_cases group with ⟨-, -, isSquare⟩ | ⟨_, begins, -⟩
      · exact isSquare
      · exact absurd (begins.symm.trans isText) (by simp)
    · obtain rfl : c = '(' := by
        by_contra other
        exact notOwn ⟨noQuote, square, other⟩
      refine Beginning.existsUnique_map .inr .inr (fun _ => rfl) (fun _ => rfl)
        (fun group isText => ?_) (level_paren.existsUnique_group '(' rest)
      rcases group_cases group with ⟨_, begins, -⟩ | ⟨-, -, isParen⟩
      · exact absurd (begins.symm.trans isText) (by simp)
      · exact isParen

/-- Every text has exactly one reading. -/
theorem existsUnique_reading (text : List Char) :
    ∃! reading : Reading, spelling reading = text := by
  obtain ⟨⟨pieces, ending⟩, isText, isOnly⟩ := level_outside.existsUnique_pieces text
  match ending, isText, isOnly with
  | .atEnd tail, isText, isOnly =>
    refine ⟨⟨pieces, tail⟩, isText, fun other otherText => ?_⟩
    cases isOnly (other.pieces, .atEnd other.tail) otherText
    rfl

end SelectorLint.Selector
