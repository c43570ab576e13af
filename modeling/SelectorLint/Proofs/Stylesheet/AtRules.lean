import SelectorLint.Proofs.Stylesheet.Grammar
import SelectorLint.Proofs.Stylesheet.Stretch

/-!
# Passing over at-rules

A token begins an at-rule exactly when it starts with one of the keywords of the grammar,
and one of the four ways to end decides how far the at-rule reaches. The characters outside
strings are what moves an at-rule on; a machine in an at-rule takes text into its token as
long as they leave the at-rule unfinished, and the first one that ends it is a boundary.
-/

namespace SelectorLint.Stylesheet

open Text

namespace AtRule

/-- A token begins no at-rule exactly when it starts with no keyword of the grammar. -/
theorem ofToken?_eq_none_iff (token : List Char) :
    ofToken? token = none ↔ ∀ keyword ∈ Grammar.keywords, ¬keyword <+: token := by
  have known : keywords.map (·.1) = Grammar.keywords := by decide
  rw [ofToken?, Option.map_eq_none_iff, List.find?_eq_none, ← known]
  simp only [List.isPrefixOf_iff_prefix, List.forall_mem_map]

/-- A token that begins no at-rule has not begun one before. -/
theorem ofToken?_of_isPrefix {part token : List Char} (isPart : part <+: token)
    (noRule : ofToken? token = none) : ofToken? part = none := by
  rw [ofToken?_eq_none_iff] at noRule ⊢
  intro keyword known starts
  exact noRule keyword known (starts.trans isPart)

/-- A token begins the at-rule of the keyword that it starts with. There is one such keyword
    at most, since none begins another. -/
theorem ofToken?_eq_some_iff (token : List Char) (rule : AtRule) :
    ofToken? token = some rule ↔ ∃ keyword, (keyword, rule) ∈ keywords ∧ keyword <+: token := by
  have apart : ∀ entry ∈ keywords, ∀ other ∈ keywords, entry.1 <+: other.1 → entry = other := by
    decide
  rw [ofToken?, Option.map_eq_some_iff]
  constructor
  · rintro ⟨⟨keyword, rule⟩, found, rfl⟩
    have starts := List.find?_some found
    rw [List.isPrefixOf_iff_prefix] at starts
    exact ⟨keyword, List.mem_of_find?_eq_some found, starts⟩
  · rintro ⟨keyword, known, starts⟩
    have isFound : (keywords.find? fun entry => entry.1.isPrefixOf token).isSome = true :=
      List.find?_isSome.mpr ⟨_, known, List.isPrefixOf_iff_prefix.mpr starts⟩
    obtain ⟨entry, found⟩ := Option.isSome_iff_exists.mp isFound
    have foundKnown : entry ∈ keywords := List.mem_of_find?_eq_some found
    have foundStarts := List.find?_some found
    rw [List.isPrefixOf_iff_prefix] at foundStarts
    have same : entry = (keyword, rule) := by
      rcases List.prefix_or_prefix_of_prefix foundStarts starts with shorter | longer
      · exact apart entry foundKnown _ known shorter
      · exact (apart _ known entry foundKnown longer).symm
    exact ⟨entry, found, by rw [same]⟩

/-- An at-rule that a token begins is begun by every token that goes on from there. -/
theorem ofToken?_append {token : List Char} {rule : AtRule} (begins : ofToken? token = some rule)
    (rest : List Char) : ofToken? (token ++ rest) = some rule := by
  rw [ofToken?_eq_some_iff] at begins ⊢
  obtain ⟨keyword, known, starts⟩ := begins
  exact ⟨keyword, known, starts.trans (List.prefix_append token rest)⟩

/-- The character that turns a token into the beginning of an at-rule completes a keyword. -/
theorem mem_keywords_of_concat {token : List Char} {c : Char} {rule : AtRule}
    (noRule : ofToken? token = none) (begins : ofToken? (token ++ [c]) = some rule) :
    (token ++ [c], rule) ∈ keywords := by
  obtain ⟨keyword, known, starts⟩ := (ofToken?_eq_some_iff _ _).mp begins
  rcases List.prefix_concat_iff.mp starts with rfl | shorter
  · exact known
  · have begun : ofToken? token = some rule :=
      (ofToken?_eq_some_iff _ _).mpr ⟨keyword, known, shorter⟩
    rw [noRule] at begun
    cases begun

/-- Characters that no keyword holds. -/
def Foreign (c : Char) : Prop := isQuote c = true ∨ c = '/' ∨ c = '{' ∨ c = '}'

instance (c : Char) : Decidable (Foreign c) :=
  inferInstanceAs (Decidable (_ ∨ _))

/-- The keywords hold none of these characters. -/
theorem not_foreign_of_mem_keyword {entry : List Char × AtRule} (known : entry ∈ keywords)
    {c : Char} (held : c ∈ entry.1) : ¬Foreign c := by
  -- The inner test is a Boolean one, so it runs over the keyword and not over all characters.
  have facts : ∀ entry ∈ keywords, entry.1.all (fun d => !decide (Foreign d)) = true := by decide
  have free := List.all_eq_true.mp (facts entry known) c held
  simpa using free

/-- What follows a character that no keyword holds does not decide what a token begins. -/
theorem ofToken?_append_cons (front rest : List Char) {c : Char} (foreign : Foreign c) :
    ofToken? (front ++ c :: rest) = ofToken? front := by
  apply Option.ext
  intro rule
  rw [ofToken?_eq_some_iff, ofToken?_eq_some_iff]
  constructor
  · rintro ⟨keyword, known, starts⟩
    refine ⟨keyword, known, ?_⟩
    rcases List.prefix_or_prefix_of_prefix starts (List.prefix_append front _) with
      shorter | ⟨more, rfl⟩
    · exact shorter
    · -- A keyword that reaches beyond the front would hold the foreign character.
      rw [List.prefix_append_right_inj] at starts
      cases more with
      | nil => rw [List.append_nil]
      | cons d more =>
        obtain ⟨rfl, _⟩ := List.cons_prefix_cons.mp starts
        exact absurd foreign (not_foreign_of_mem_keyword known (by simp))
  · rintro ⟨keyword, known, starts⟩
    exact ⟨keyword, known, starts.trans (List.prefix_append front _)⟩

/-- No keyword ends with a brace, so a brace does not turn a token into an at-rule. -/
theorem ofToken?_concat_brace (token : List Char) (c : Char) (isBrace : c = '{' ∨ c = '}')
    (noRule : ofToken? token = none) : ofToken? (token ++ [c]) = none := by
  rw [ofToken?_append_cons token [] (.inr (.inr isBrace))]
  exact noRule

/-- No keyword holds a quote, so text of an open string does not turn a token into an
    at-rule. -/
theorem ofToken?_concat_of_not_closed {token : List Char} (opened : ¬Closed token) (c : Char) :
    ofToken? (token ++ [c]) = ofToken? token := by
  obtain ⟨quote, member, isQuote⟩ := exists_quote_of_not_closed opened
  obtain ⟨front, rest, rfl⟩ := List.append_of_mem member
  rw [List.append_assoc, List.cons_append, ofToken?_append_cons front _ (.inl isQuote),
    ofToken?_append_cons front _ (.inl isQuote)]

/-- The at-rule as its keyword begins it, before any brace is counted. -/
def initial : AtRule → AtRule
  | keyframes _ _ => keyframes 0 0
  | rule => rule

/-- A keyword begins its at-rule afresh, and its own characters do not move the at-rule on. -/
theorem initial_of_mem_keywords {entry : List Char × AtRule} (known : entry ∈ keywords) :
    entry.2.initial = entry.2 ∧ (outside entry.1).foldlM advance? entry.2 = some entry.2 := by
  have facts : ∀ entry ∈ keywords, entry.2.initial = entry.2 ∧
      (outside entry.1).foldlM advance? entry.2 = some entry.2 := by decide
  exact facts entry known

/-- An at-rule that goes on is still the one that its keyword began. -/
theorem initial_of_advance? {rule next : AtRule} {c : Char}
    (advanced : rule.advance? c = some next) : next.initial = rule.initial := by
  cases rule with
  | statement | header | definition =>
    rw [advance?, Option.ite_none_left_eq_some] at advanced
    rw [← Option.some.inj advanced.2]
  | keyframes opened closed =>
    rw [advance?, Option.ite_none_left_eq_some] at advanced
    rw [← Option.some.inj advanced.2]
    rfl

/-- Characters that each leave an at-rule as it is leave it as it is together. -/
theorem foldlM_advance?_of_forall (rule : AtRule) (seen : List Char)
    (stays : ∀ c ∈ seen, rule.advance? c = some rule) :
    seen.foldlM advance? rule = some rule := by
  induction seen with
  | nil => rfl
  | cons c rest inductionHypothesis =>
    rw [List.foldlM_cons, stays c List.mem_cons_self, Option.bind_eq_bind, Option.bind_some]
    exact inductionHypothesis fun other member => stays other (List.mem_cons_of_mem c member)

/-- An at-rule of keyframes that has counted the braces seen counts the next character with
    them, and ends when the counts are equal and not zero. -/
theorem advance?_keyframes (seen : List Char) (c : Char) :
    (keyframes (seen.count '{') (seen.count '}')).advance? c =
      if 0 < (seen ++ [c]).count '{' ∧ (seen ++ [c]).count '{' = (seen ++ [c]).count '}' then none
      else some (keyframes ((seen ++ [c]).count '{') ((seen ++ [c]).count '}')) := by
  have counts (brace : Char) : (seen ++ [c]).count brace =
      if c = brace then seen.count brace + 1 else seen.count brace := by
    rw [List.count_append, List.count_singleton]
    by_cases same : c = brace <;> simp [same]
  rw [advance?, counts, counts]

/-- An at-rule of keyframes that is unfinished has counted all braces seen, and they do not
    balance. -/
theorem eq_keyframes_of_foldlM (seen : List Char) (reached : AtRule)
    (unfinished : seen.foldlM advance? (keyframes 0 0) = some reached) :
    reached = keyframes (seen.count '{') (seen.count '}') ∧
      ¬(0 < seen.count '{' ∧ seen.count '{' = seen.count '}') := by
  induction seen using List.reverseRecOn generalizing reached with
  | nil =>
    rw [List.foldlM_nil] at unfinished
    exact ⟨(Option.some.inj unfinished).symm, by decide⟩
  | append_singleton seen c inductionHypothesis =>
    rw [List.foldlM_append, Option.bind_eq_bind, Option.bind_eq_some_iff] at unfinished
    obtain ⟨before, unfinishedBefore, advanced⟩ := unfinished
    obtain ⟨rfl, _⟩ := inductionHypothesis before unfinishedBefore
    rw [List.foldlM_cons, advance?_keyframes] at advanced
    split at advanced
    · cases advanced
    · rename_i unbalanced
      exact ⟨(Option.some.inj advanced).symm, unbalanced⟩

/-- A character that is neither a brace nor a semicolon leaves an unfinished at-rule as it
    is. For keyframes that needs the braces seen not to balance already. -/
theorem advance?_of_unfinished (seen : List Char) (rule : AtRule)
    (unfinished : seen.foldlM advance? rule.initial = some rule) (c : Char)
    (inert : c ≠ ';' ∧ c ≠ '{' ∧ c ≠ '}') : rule.advance? c = some rule := by
  obtain ⟨noSemicolon, noOpening, noClosing⟩ := inert
  cases rule with
  | statement => exact if_neg noSemicolon
  | header => exact if_neg noOpening
  | definition => exact if_neg noClosing
  | keyframes opened closed =>
    obtain ⟨counted, unbalanced⟩ := eq_keyframes_of_foldlM seen _ unfinished
    obtain ⟨rfl, rfl⟩ := AtRule.keyframes.inj counted
    rw [advance?, if_neg noOpening, if_neg noClosing]
    exact if_neg unbalanced

/-- As long as the braces of a text have not balanced, an at-rule of keyframes goes on and
    has counted the braces outside strings. -/
theorem foldlM_advance?_keyframes (text : List Char)
    (never : ∀ part, part <+: text → ¬Grammar.Balanced part) :
    (outside text).foldlM advance? (keyframes 0 0) =
      some (keyframes ((outside text).count '{') ((outside text).count '}')) := by
  induction text using List.reverseRecOn with
  | nil => rfl
  | append_singleton text c inductionHypothesis =>
    have shorter : (outside text).foldlM advance? (keyframes 0 0) =
        some (keyframes ((outside text).count '{') ((outside text).count '}')) :=
      inductionHypothesis fun part isPart => never part (isPart.trans (List.prefix_append _ _))
    have unbalanced : ¬Grammar.Balanced (text ++ [c]) := never _ (List.prefix_refl _)
    rw [Grammar.Balanced] at unbalanced
    rw [outside_concat] at unbalanced ⊢
    split
    · rename_i isOutside
      rw [if_pos isOutside] at unbalanced
      rw [List.foldlM_append, shorter, Option.bind_eq_bind, Option.bind_some,
        List.foldlM_cons, advance?_keyframes, if_neg unbalanced]
      rfl
    · simpa only [List.append_nil] using shorter

end AtRule

namespace Machine

/-- The contexts around strings in an at-rule that has seen characters outside strings. -/
def around (rule : AtRule) (outer : List Context) (seen : List Char) : List Context :=
  match seen.foldlM AtRule.advance? rule with
  | some reached => .atRule reached :: outer
  | none => outer

/-- Text that leaves an at-rule unfinished is a stretch of its token. -/
theorem stretch_atRule (machine : Machine) (rule last : AtRule) (outer : List Context)
    (text : List Char) (unquoted : Context.Unquoted outer) (begun : machine.token ≠ [])
    (apart : machine.token.getLast? ≠ some '/') (uncommented : Uncommented text)
    (unfinished : (outside text).foldlM AtRule.advance? rule = some last) :
    Stretch machine (around rule outer) text where
  unquoted seen := by
    rw [around]
    split
    · trivial
    · exact unquoted
  uncommented := uncommented
  apart := apart
  begun empty := absurd empty begun
  goesOn before c part closed noQuote := by
    have seen : outside before ++ [c] <+: outside text := by
      have isPart := outside_isPrefix _ _ part
      rwa [outside_concat, if_pos ⟨closed, noQuote⟩] at isPart
    obtain ⟨later, whole⟩ := seen
    rw [← whole, List.append_assoc, List.foldlM_append, Option.bind_eq_bind,
      Option.bind_eq_some_iff] at unfinished
    obtain ⟨reached, reachedBefore, unfinished⟩ := unfinished
    rw [List.cons_append, List.foldlM_cons, Option.bind_eq_bind,
      Option.bind_eq_some_iff] at unfinished
    obtain ⟨next, advanced, _⟩ := unfinished
    have reachedNext : (outside before ++ [c]).foldlM AtRule.advance? rule = some next := by
      rw [List.foldlM_append, reachedBefore, Option.bind_eq_bind, Option.bind_some,
        List.foldlM_cons, advanced]
      rfl
    simp only [around, reachedBefore, reachedNext, readPlain, taken_stack, advanced]
    rfl

/-- A run over the rest of an at-rule, up to and with the character that ends it. That
    character is a boundary. -/
theorem run_atRule (machine : Machine) (rule last : AtRule) (outer : List Context)
    (rest : List Char) (c : Char) (inside : machine.stack = .atRule rule :: outer)
    (unquoted : Context.Unquoted outer) (begun : machine.token ≠ [])
    (apart : machine.token.getLast? ≠ some '/') (closed : Closed rest)
    (uncommented : Uncommented rest) (noQuote : isQuote c = false) (noStar : c ≠ '*')
    (unfinished : (outside rest).foldlM AtRule.advance? rule = some last)
    (ends : last.advance? c = none) :
    machine.run (rest ++ [c]) =
      ((machine.taken (rest ++ [c]) outer).cut,
        [.skipped last (machine.token ++ (rest ++ [c]))]) := by
  have stretch : Stretch machine (around rule outer) rest :=
    stretch_atRule machine rule last outer rest unquoted begun apart uncommented unfinished
  have contexts : around rule outer (outside rest) = .atRule last :: outer := by
    rw [around, unfinished]
  have noBoundary (empty : machine.token ++ rest = []) : isBlank c = false ∧ c ≠ '}' :=
    absurd (List.append_eq_nil_iff.mp empty).1 begun
  rw [stretch.run_concat inside c closed noQuote noStar noBoundary, contexts]
  simp only [readPlain, taken_stack, ends]
  rfl

end Machine

end SelectorLint.Stylesheet
