import SelectorLint.Finding

/-!
# Reading a finding back from its line

Findings are told apart by their lines, while a file name may hold colons, hyphens and
blanks of its own. A line can still be read back from its end. A text of a problem has no
hyphen directly behind a space, so the last ` - ` of the line stands in front of the text;
the numbers of the span hold digits only, so each is what stands behind the last colon or
hyphen. This needs that a repeated selector has no space in it: a selector such as
`.a - b` could be taken for a part of a longer file name.
-/

namespace SelectorLint

open Stylesheet

/-- The last occurrence of a character divides a text in one way. -/
theorem append_cons_inj_of_last {front other rest tail : List Char} (c : Char)
    (absentRest : c ∉ rest) (absentTail : c ∉ tail)
    (same : front ++ c :: rest = other ++ c :: tail) : front = other ∧ rest = tail := by
  rcases List.append_eq_append_iff.mp same with
    ⟨between, longer, shifted⟩ | ⟨between, longer, shifted⟩
  · cases between with
    | nil => simp_all
    | cons first between =>
      obtain ⟨rfl, inside⟩ : c = first ∧ rest = between ++ c :: tail := by simpa using shifted
      exact absurd (by simp [inside]) absentRest
  · cases between with
    | nil => simp_all
    | cons first between =>
      obtain ⟨rfl, inside⟩ : c = first ∧ tail = between ++ c :: rest := by simpa using shifted
      exact absurd (by simp [inside]) absentTail

/-- A number is written with digits only. -/
theorem not_mem_repr (number : Nat) (c : Char) (noDigit : c.isDigit = false) :
    c ∉ number.repr.toList := by
  intro member
  rw [Nat.toList_repr] at member
  have digit := Nat.isDigit_of_mem_toDigits (by decide) (by decide) member
  rw [noDigit] at digit
  exact Bool.noConfusion digit

/-- Different numbers are written differently. -/
theorem eq_of_repr_eq (first second : Nat)
    (same : first.repr.toList = second.repr.toList) : first = second := by
  rw [Nat.toList_repr, Nat.toList_repr] at same
  rw [← Nat.ofDigitChars_ten_toDigits (n := first), same, Nat.ofDigitChars_ten_toDigits]

/-- A position is written as two numbers around a colon. -/
theorem Stylesheet.Position.toList_render (position : Position) :
    position.render.toList = position.line.repr.toList ++ ':' :: position.column.repr.toList := by
  simp only [Position.render, String.toList_append, List.append_assoc]
  rfl

/-- The number behind the last colon is the column, the one in front of it the line; the
    text in front of the last `separator` is what stands before the position. -/
theorem Stylesheet.Position.render_inj {front other : List Char} (separator : Char)
    (noDigit : separator.isDigit = false) (first second : Position)
    (same : front ++ separator :: first.render.toList =
      other ++ separator :: second.render.toList) :
    front = other ∧ first = second := by
  rw [toList_render, toList_render, ← List.cons_append, ← List.cons_append,
    ← List.append_assoc, ← List.append_assoc] at same
  obtain ⟨sameFront, sameColumn⟩ := append_cons_inj_of_last ':'
    (not_mem_repr _ _ (by decide)) (not_mem_repr _ _ (by decide)) same
  obtain ⟨sameBefore, sameLine⟩ := append_cons_inj_of_last separator
    (not_mem_repr _ _ noDigit) (not_mem_repr _ _ noDigit) sameFront
  have line : first.line = second.line := eq_of_repr_eq _ _ sameLine
  have column : first.column = second.column := eq_of_repr_eq _ _ sameColumn
  cases first
  cases second
  simp only [Position.mk.injEq]
  exact ⟨sameBefore, line, column⟩

/-- Different spans are written differently, whatever the names of their stylesheets. -/
theorem Stylesheet.Span.render_injective (first second : Span)
    (same : first.render.toList = second.render.toList) : first = second := by
  have parts (span : Span) : span.render.toList =
      (span.file.toList ++ ':' :: span.first.render.toList) ++ '-' :: span.last.render.toList := by
    simp only [Span.render, String.toList_append, List.append_assoc]
    rfl
  rw [parts, parts] at same
  obtain ⟨sameFront, sameLast⟩ := Position.render_inj '-' (by decide) _ _ same
  obtain ⟨sameFile, sameFirst⟩ := Position.render_inj ':' (by decide) _ _ sameFront
  cases first
  cases second
  simp only [Span.mk.injEq]
  exact ⟨String.toList_inj.mp sameFile, sameFirst, sameLast⟩

/-- The last ` - ` divides a text in one way: behind it no hyphen follows a space. -/
theorem append_separator_inj {front other rest tail : List Char}
    (noneRest : ¬[' ', '-'] <:+: ' ' :: rest) (noneTail : ¬[' ', '-'] <:+: ' ' :: tail)
    (same : front ++ ' ' :: '-' :: ' ' :: rest = other ++ ' ' :: '-' :: ' ' :: tail) :
    front = other ∧ rest = tail := by
  -- A separator that begins later in one reading lies inside the rest of the other.
  have notLater {between rest tail : List Char} (none : ¬[' ', '-'] <:+: ' ' :: rest)
      (shifted : ' ' :: '-' :: ' ' :: rest = between ++ ' ' :: '-' :: ' ' :: tail) :
      between = [] := by
    match between, shifted with
    | [], _ => rfl
    | [_], shifted => exact absurd shifted (by simp)
    | _ :: _ :: between, shifted =>
      have inside : ' ' :: rest = between ++ [' ', '-'] ++ (' ' :: tail) := by
        simpa using (List.cons.inj (List.cons.inj shifted).2).2
      exact absurd ⟨between, ' ' :: tail, inside.symm⟩ none
  rcases List.append_eq_append_iff.mp same with
    ⟨between, longer, shifted⟩ | ⟨between, longer, shifted⟩
  · obtain rfl := notLater noneRest shifted
    simp_all
  · obtain rfl := notLater noneTail shifted
    simp_all

/-- A problem whose selector, if it names one, has no space. -/
def Problem.Spaceless : Problem → Prop
  | duplicateSelector selector => ' ' ∉ selector
  | _ => True

/-- The problems whose text does not depend on a selector. -/
def Problem.fixed : List Problem :=
  [attributeSelector, idSelector, elementSelector] ++ Selector.Combinator.all.map combinator

/-- A problem has a fixed text or names a repeated selector. -/
theorem Problem.fixed_or_duplicate (problem : Problem) :
    problem ∈ fixed ∨ ∃ selector, problem = duplicateSelector selector := by
  cases problem with
  | duplicateSelector selector => exact .inr ⟨selector, rfl⟩
  | attributeSelector => exact .inl (by decide)
  | combinator combinator => exact .inl (by cases combinator <;> decide)
  | idSelector => exact .inl (by decide)
  | elementSelector => exact .inl (by decide)

/-- The text of a repeated selector. -/
theorem Problem.toList_text_duplicate (selector : List Char) :
    (duplicateSelector selector).text.toList =
      "duplicate selector '".toList ++ (selector ++ ['\'']) := by
  have quote : "'".toList = ['\''] := by decide
  have inside : (String.ofList selector).toList = selector := String.toList_ofList
  change ("duplicate selector '" ++ String.ofList selector ++ "'").toList = _
  rw [String.toList_append, String.toList_append, inside, quote, List.append_assoc]

/-- In the text of a problem without a space in its selector, no hyphen follows a space. The
    selector stands behind a quote, so its first character does not follow a space either. -/
theorem Problem.Spaceless.no_separator {problem : Problem} (spaceless : problem.Spaceless) :
    ¬[' ', '-'] <:+: ' ' :: problem.text.toList := by
  have without {text : List Char} (noHyphen : '-' ∉ text) : ¬[' ', '-'] <:+: text :=
    fun inside => noHyphen (inside.subset (by simp))
  rcases problem.fixed_or_duplicate with isFixed | ⟨selector, rfl⟩
  · have noHyphen : ∀ problem ∈ fixed, '-' ∉ ' ' :: problem.text.toList := by decide +kernel
    exact without (noHyphen problem isFixed)
  · have noSpace : ' ' ∉ selector ++ ['\''] := by simpa [Spaceless] using spaceless
    have quoteLast : (' ' :: "duplicate selector '".toList).getLast? = some '\'' := by decide
    rw [toList_text_duplicate, ← List.cons_append, List.infix_append_iff_ne_nil]
    rintro (inFront | inSelector | ⟨first, second, firstNonempty, secondNonempty, parts, ends, _⟩)
    · exact without (by decide) inFront
    · exact noSpace (inSelector.subset (by simp))
    · have firstSpace : first = [' '] := by
        match first, second, parts with
        | [_], [_], parts => simpa using congrArg List.head? parts.symm
        | [], _, _ => exact absurd rfl firstNonempty
        | [_], [], _ => exact absurd rfl secondNonempty
        | [_], _ :: _ :: _, parts => exact absurd parts (by simp)
        | _ :: _ :: _, _ :: _, parts => exact absurd parts (by simp)
        | _ :: _ :: _, [], _ => exact absurd rfl secondNonempty
      obtain ⟨front, whole⟩ := ends
      rw [← whole, firstSpace, List.getLast?_concat] at quoteLast
      exact absurd quoteLast (by decide)

/-- A fixed text is not that of a repeated selector: their second characters differ. -/
theorem Problem.fixed_ne_duplicate {problem : Problem} (isFixed : problem ∈ fixed)
    (selector : List Char) :
    problem.text.toList ≠ (duplicateSelector selector).text.toList := by
  have second : ∀ problem ∈ fixed, problem.text.toList[1]? ≠ some 'u' := by
    decide +kernel
  intro same
  apply second problem isFixed
  rw [same, toList_text_duplicate]
  rfl

/-- Different problems have different texts. -/
theorem Problem.text_injective (first second : Problem)
    (same : first.text.toList = second.text.toList) : first = second := by
  rcases first.fixed_or_duplicate with firstFixed | ⟨selector, rfl⟩
  · rcases second.fixed_or_duplicate with secondFixed | ⟨other, rfl⟩
    · have distinct : ∀ first ∈ fixed, ∀ second ∈ fixed,
          first.text.toList = second.text.toList → first = second := by decide +kernel
      exact distinct first firstFixed second secondFixed same
    · exact absurd same (fixed_ne_duplicate firstFixed other)
  · rcases second.fixed_or_duplicate with secondFixed | ⟨other, rfl⟩
    · exact absurd same.symm (fixed_ne_duplicate secondFixed selector)
    · rw [toList_text_duplicate, toList_text_duplicate] at same
      rw [List.append_cancel_right (List.append_cancel_left same)]

/-- Findings whose selectors have no space are told apart by their lines. -/
theorem Finding.eq_of_line_eq {first second : Finding} (spaceless : first.problem.Spaceless)
    (otherSpaceless : second.problem.Spaceless) (same : first.line = second.line) :
    first = second := by
  have parts (finding : Finding) : finding.line.toList =
      finding.span.render.toList ++ ' ' :: '-' :: ' ' :: finding.problem.text.toList := by
    simp only [line, String.toList_append, List.append_assoc]
    rfl
  have sameChars := congrArg String.toList same
  rw [parts, parts] at sameChars
  obtain ⟨sameSpan, sameText⟩ :=
    append_separator_inj spaceless.no_separator otherSpaceless.no_separator sameChars
  cases first
  cases second
  simp only [Finding.mk.injEq]
  exact ⟨Span.render_injective _ _ sameSpan, Problem.text_injective _ _ sameText⟩

end SelectorLint
