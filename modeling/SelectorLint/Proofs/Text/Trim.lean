import Mathlib.Data.List.DropRight
import SelectorLint.Text.Blank

/-!
# Trimming

Trimming keeps a middle part of a text. A trimmed text begins and ends with characters
that are not blank, so trimming it again changes nothing. Only blanks are trimmed, and the
blanks that stay are those between characters that are not blank.
-/

namespace SelectorLint.Text

/-- Trimming the end keeps a first part of the text. -/
theorem trimEnd_isPrefix (text : List Char) : trimEnd text <+: text :=
  List.rdropWhile_prefix isBlank text

/-- Trimming keeps a middle part of the text. -/
theorem trim_isInfix (text : List Char) : trim text <:+: text :=
  (trimEnd_isPrefix _).isInfix.trans (List.dropWhile_suffix isBlank).isInfix

/-- Text that begins with a character that is not blank is not trimmed in front. -/
theorem trimStart_eq_self {text : List Char} (begins : ∀ c ∈ text.head?, isBlank c = false) :
    trimStart text = text := by
  cases text with
  | nil => rfl
  | cons c rest =>
    have notBlank : isBlank c = false := begins c rfl
    rw [trimStart, List.dropWhile_cons_of_neg (by simp [notBlank])]

/-- The first character of a text trimmed in front is not blank. -/
theorem head?_trimStart (text : List Char) : ∀ c ∈ (trimStart text).head?, isBlank c = false := by
  intro c first
  have begins : (text.dropWhile isBlank).head? = some c := first
  have notBlank := List.head?_dropWhile_not isBlank text
  rwa [begins] at notBlank

/-- The first character of a first part of a text is the first character of the text. -/
theorem head?_of_isPrefix {part text : List Char} (isPart : part <+: text) {c : Char}
    (first : c ∈ part.head?) : c ∈ text.head? := by
  obtain ⟨rest, rfl⟩ := isPart
  cases part with
  | nil => cases first
  | cons head tail => exact first

/-- The first character of a trimmed text is not blank. -/
theorem head?_trim (text : List Char) : ∀ c ∈ (trim text).head?, isBlank c = false := by
  intro c first
  exact head?_trimStart text c (head?_of_isPrefix (trimEnd_isPrefix _) first)

/-- The last character of a trimmed text is not blank. -/
theorem getLast?_trim (text : List Char) : ∀ c ∈ (trim text).getLast?, isBlank c = false := by
  intro c last
  rw [trim, trimEnd, List.getLast?_reverse] at last
  exact head?_trimStart (trimStart text).reverse c last

/-- Blanks are dropped up to the first character that is not blank. -/
theorem dropWhile_append_cons (front rest : List Char) {c : Char} (notBlank : isBlank c = false) :
    (front ++ c :: rest).dropWhile isBlank = front.dropWhile isBlank ++ c :: rest := by
  have stops : (c :: rest).dropWhile isBlank = c :: rest :=
    List.dropWhile_cons_of_neg (by simp [notBlank])
  rw [List.dropWhile_append, stops]
  split
  · rename_i empty
    rw [List.isEmpty_iff.mp empty, List.nil_append]
  · rfl

/-- A character that is not blank keeps what follows it from being trimmed in front. -/
theorem trimStart_append_cons (front rest : List Char) {c : Char} (notBlank : isBlank c = false) :
    trimStart (front ++ c :: rest) = trimStart front ++ c :: rest :=
  dropWhile_append_cons front rest notBlank

/-- A character that is not blank keeps what stands in front of it from being trimmed
    behind. -/
theorem trimEnd_append_cons (front rest : List Char) {c : Char} (notBlank : isBlank c = false) :
    trimEnd (front ++ c :: rest) = front ++ c :: trimEnd rest := by
  have reversed : (front ++ c :: rest).reverse = rest.reverse ++ c :: front.reverse := by
    simp only [List.reverse_append, List.reverse_cons, List.append_assoc, List.cons_append,
      List.nil_append]
  rw [trimEnd, reversed, dropWhile_append_cons rest.reverse front.reverse notBlank]
  simp only [trimEnd, List.reverse_append, List.reverse_cons, List.reverse_reverse,
    List.append_assoc, List.cons_append, List.nil_append]

/-- Trimming a trimmed text changes nothing. -/
@[simp]
theorem trim_trim (text : List Char) : trim (trim text) = trim text := by
  have front : trimStart (trim text) = trim text := trimStart_eq_self (head?_trim text)
  rw [trim, front, trim]
  exact List.rdropWhile_idempotent isBlank _

/-- A blank in front of a text is trimmed. -/
theorem trim_cons_blank {c : Char} (blank : isBlank c = true) (text : List Char) :
    trim (c :: text) = trim text := by
  rw [trim, trimStart, List.dropWhile_cons_of_pos blank]
  rfl

/-- A blank behind a text is trimmed from its end. -/
theorem trimEnd_concat_blank {c : Char} (blank : isBlank c = true) (text : List Char) :
    trimEnd (text ++ [c]) = trimEnd text :=
  List.rdropWhile_concat_pos isBlank text c blank

/-- A blank behind a text is trimmed. -/
theorem trim_concat_blank {c : Char} (blank : isBlank c = true) (text : List Char) :
    trim (text ++ [c]) = trim text := by
  induction text with
  | nil => rw [List.nil_append, trim_cons_blank blank]
  | cons first rest inductionHypothesis =>
    rw [List.cons_append]
    cases leading : isBlank first with
    | true => rw [trim_cons_blank leading, trim_cons_blank leading, inductionHypothesis]
    | false =>
      have kept (others : List Char) : trimStart (first :: others) = first :: others :=
        trimStart_append_cons [] others leading
      rw [trim, trim, kept, kept, ← List.cons_append, trimEnd_concat_blank blank]

/-- Trimming takes nothing but blanks. -/
theorem filter_trim (text : List Char) :
    (trim text).filter (!isBlank ·) = text.filter (!isBlank ·) := by
  have dropped (text : List Char) :
      (text.dropWhile isBlank).filter (!isBlank ·) = text.filter (!isBlank ·) := by
    induction text with
    | nil => rfl
    | cons c rest inductionHypothesis =>
      cases blank : isBlank c with
      | true => simp [blank, inductionHypothesis]
      | false => rw [List.dropWhile_cons_of_neg (by simp [blank])]
  rw [trim, trimEnd, List.filter_reverse, dropped, List.filter_reverse, List.reverse_reverse,
    trimStart, dropped]

/-- A character that is not blank survives trimming. -/
theorem mem_trim_iff_of_not_blank {c : Char} (notBlank : isBlank c = false) (text : List Char) :
    c ∈ trim text ↔ c ∈ text := by
  have same : c ∈ (trim text).filter (!isBlank ·) ↔ c ∈ text.filter (!isBlank ·) := by
    rw [filter_trim]
  simpa [notBlank] using same

/-- A blank survives trimming exactly when it stands between two characters that are not
    blank. -/
theorem mem_trim_iff_of_blank {c : Char} (blank : isBlank c = true) (text : List Char) :
    c ∈ trim text ↔ ∃ first inner last, first :: (inner ++ [last]) <:+: text ∧
      isBlank first = false ∧ isBlank last = false ∧ c ∈ inner := by
  constructor
  · intro member
    have begins := head?_trim text
    have ends := getLast?_trim text
    have isPart := trim_isInfix text
    -- The blank is neither the first nor the last character of what is left.
    cases trimmed : trim text with
    | nil => simp [trimmed] at member
    | cons first rest =>
      rw [trimmed] at begins ends isPart member
      have firstNotBlank := begins first rfl
      have inRest : c ∈ rest := by
        rcases List.mem_cons.mp member with rfl | inRest
        · exact absurd blank (by simp [firstNotBlank])
        · exact inRest
      rcases List.eq_nil_or_concat' rest with rfl | ⟨inner, last, rfl⟩
      · cases inRest
      · have lastNotBlank : isBlank last = false := by
          apply ends
          rw [← List.cons_append, List.getLast?_concat]
          rfl
        refine ⟨first, inner, last, isPart, firstNotBlank, lastNotBlank, ?_⟩
        rcases List.mem_append.mp inRest with inInner | isLast
        · exact inInner
        · rw [List.mem_singleton.mp isLast] at blank
          exact absurd blank (by simp [lastNotBlank])
  · rintro ⟨first, inner, last, ⟨front, back, rfl⟩, firstNotBlank, lastNotBlank, inInner⟩
    have split : front ++ first :: (inner ++ [last]) ++ back =
        front ++ first :: (inner ++ last :: back) := by
      simp only [List.append_assoc, List.cons_append, List.nil_append]
    rw [split, trim, trimStart_append_cons front _ firstNotBlank,
      ← List.cons_append, ← List.append_assoc, trimEnd_append_cons _ back lastNotBlank]
    simp [inInner]

end SelectorLint.Text
