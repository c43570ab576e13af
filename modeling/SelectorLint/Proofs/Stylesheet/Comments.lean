import SelectorLint.Proofs.Stylesheet.Agreement
import SelectorLint.Proofs.Stylesheet.Coherence

/-!
# Comments leave no trace

A comment may stand wherever no string or comment is open. Behind it the contexts, the token
and the boundary are what they were in front of it, and only the position has moved on. So a
stylesheet and the same stylesheet without the comment have preludes with the same texts and
end in the same contexts.

The slash of the opener goes the way of every character before the star follows it: it must
not complete a keyword, end a token or end an at-rule. That it does not is what the coherence
of the machine in front of the comment gives.
-/

namespace SelectorLint.Stylesheet

open Text

/-- The text of a comment. -/
def comment (content : List Char) : List Char := ['/', '*'] ++ (content ++ ['*', '/'])

/-- The first closer of a comment is the one that ends it. -/
def Unclosing (content : List Char) : Prop :=
  ∀ cut < content.length, ¬['*', '/'] <+: (content ++ ['*', '/']).drop cut

instance (content : List Char) : Decidable (Unclosing content) :=
  inferInstanceAs (Decidable (∀ cut < content.length, _))

/-- No closer is complete before the last character of the comment. -/
theorem Unclosing.not_infix {content : List Char} (unclosing : Unclosing content) :
    ¬['*', '/'] <:+: content ++ ['*'] := by
  rintro ⟨front, rest, whole⟩
  have length := congrArg List.length whole
  simp only [List.length_append, List.length_cons, List.length_nil] at length
  have split : content ++ ['*', '/'] = front ++ (['*', '/'] ++ (rest ++ ['/'])) := by
    calc content ++ ['*', '/'] = content ++ ['*'] ++ ['/'] := by
          rw [List.append_assoc]
          rfl
      _ = front ++ (['*', '/'] ++ (rest ++ ['/'])) := by
          rw [← whole]
          simp only [List.append_assoc]
  apply unclosing front.length (by omega)
  rw [split, List.drop_left]
  exact List.prefix_append _ _

namespace Machine

/-- Outside strings and comments a coherent machine takes a slash and does nothing else. -/
theorem Coherent.step_slash {machine : Machine} (coherent : machine.Coherent)
    (unquoted : Context.Unquoted machine.stack) :
    machine.step '/' = (machine.take '/', none) := by
  obtain ⟨rule, outer, stop, between, fits, closed, stack⟩ := coherent.of_unquoted unquoted
  rw [step_readPlain machine unquoted '/' (by decide) (fun star => absurd star (by decide))
    (fun _ => by decide)]
  cases rule with
  | some reached =>
    have inRule : (machine.take '/').stack = .atRule reached :: outer := stack
    have still : reached.advance? '/' = some reached :=
      AtRule.advance?_of_unfinished _ reached (fits.moved reached rfl) '/' (by decide)
    simp only [readPlain, inRule, still]
    rw [← inRule]
  | none =>
    have around : Context.Between (machine.take '/').stack stop := by
      change Context.Between machine.stack stop
      rw [stack]
      exact between
    have noRule : AtRule.ofToken? (machine.take '/').token = none := by
      rw [take, AtRule.ofToken?_append_cons machine.token [] (.inr (.inl rfl))]
      exact fits.begun
    apply readPlain_between _ around noRule
    rcases between.isBrace with rfl | rfl
    · decide
    · decide

/-- The opener of a comment enters the comment. Its offset is the length of the token in
    front of it, whatever characters end that token. -/
theorem Coherent.run_opener {machine : Machine} (coherent : machine.Coherent)
    (unquoted : Context.Unquoted machine.stack) :
    machine.run ['/', '*'] = (machine.taken ['/', '*']
      (.comment (byteLength machine.token) :: machine.stack), []) := by
  have star := step_opening_star (machine.take '/') unquoted machine.token rfl
  rw [run_cons, coherent.step_slash unquoted, run_singleton, star]
  simp only [take, taken, enter, List.append_assoc, List.foldl_cons, List.foldl_nil,
    Option.toList_none, List.append_nil, List.cons_append, List.nil_append]

/-- Text of a comment that does not close it is taken. -/
theorem run_in_comment (machine : Machine) (front inside more : List Char) (outer : List Context)
    (stack : machine.stack = .comment (byteLength front) :: outer)
    (token : machine.token = front ++ '/' :: '*' :: inside)
    (unended : ¬['*', '/'] <:+: inside ++ more) :
    machine.run more = (machine.taken more machine.stack, []) := by
  induction more using List.reverseRecOn with
  | nil =>
    rw [run_nil, taken, List.append_nil]
    rfl
  | append_singleton more c inductionHypothesis =>
    rw [← List.append_assoc, List.infix_concat_iff, not_or] at unended
    have longer : (machine.taken more machine.stack).token =
        front ++ '/' :: '*' :: (inside ++ more) := by
      rw [taken_token, token, List.append_assoc]
      rfl
    rw [run_append, inductionHypothesis unended.2]
    dsimp only
    rw [run_singleton, step_comment (machine.taken more machine.stack) front (inside ++ more) outer
      c stack longer, if_neg unended.1, take_taken]
    rfl

/-- A comment outside strings and comments moves the position of a coherent machine and does
    nothing else. -/
theorem Coherent.run_comment {machine : Machine} (coherent : machine.Coherent)
    (unquoted : Context.Unquoted machine.stack) (content : List Char)
    (unclosing : Unclosing content) :
    machine.run (comment content) = ({ machine with
      position := (comment content).foldl Position.advance machine.position }, []) := by
  have parts : comment content = ['/', '*'] ++ ((content ++ ['*']) ++ ['/']) := by
    rw [comment, List.append_assoc]
    rfl
  have closer : ['*', '/'] <:+ content ++ ['*'] ++ ['/'] :=
    (pair_suffix_concat_iff _ _ _ _).mpr ⟨rfl, List.getLast?_concat⟩
  have body := run_in_comment
    (machine.taken ['/', '*'] (.comment (byteLength machine.token) :: machine.stack))
    machine.token [] (content ++ ['*']) machine.stack rfl rfl unclosing.not_infix
  rw [parts, run_append, coherent.run_opener unquoted]
  dsimp only
  rw [run_append, body]
  dsimp only
  rw [run_singleton, step_comment _ machine.token (content ++ ['*']) machine.stack '/' rfl ?_,
    if_pos closer]
  · simp only [take, taken, List.foldl_append, List.foldl_cons, List.foldl_nil]
    rfl
  · simp only [taken, List.append_assoc, List.cons_append, List.nil_append]

end Machine

/-- The texts of the preludes of a stylesheet. -/
theorem map_text_preludes (file : String) (text : List Char) :
    (preludes file text).map (·.text) = Machine.texts { file } text := by
  rw [preludes, emissions, Machine.texts, List.map_filterMap]
  rfl

/-- Comments are transparent. Wherever no string or comment is open behind a text, a comment
    emits nothing and leaves contexts, token and boundary as they were. With the comment and
    without it, whatever follows has preludes with the same texts and ends in the same
    contexts. -/
theorem comment_transparent (file : String) (before content : List Char)
    (unquoted : Context.Unquoted (Machine.run { file } before).1.stack)
    (unclosing : Unclosing content) :
    (Machine.run { file } before).1.run (comment content) =
        ({ (Machine.run { file } before).1 with
          position := (comment content).foldl Position.advance
            (Machine.run { file } before).1.position }, []) ∧
      ∀ post,
        (preludes file (before ++ comment content ++ post)).map (·.text) =
          (preludes file (before ++ post)).map (·.text) ∧
        (Machine.run { file } (before ++ comment content ++ post)).1.stack =
          (Machine.run { file } (before ++ post)).1.stack := by
  have passed := (Machine.coherent_run file before).run_comment unquoted content unclosing
  refine ⟨passed, ?_⟩
  intro post
  have agree : Machine.Agree (Machine.run { file } (before ++ comment content)).1
      (Machine.run { file } before).1 := by
    rw [Machine.run_append, passed]
    exact ⟨rfl, rfl⟩
  have silent : (Machine.run { file } before).1.texts (comment content) = [] := by
    rw [Machine.texts, passed]
    rfl
  obtain ⟨behind, texts⟩ := agree.run post
  constructor
  · rw [map_text_preludes, map_text_preludes, Machine.texts_append _ (before ++ comment content),
      Machine.texts_append _ before post, Machine.texts_append _ before (comment content), silent,
      List.append_nil, texts]
  · rw [Machine.run_append _ (before ++ comment content), Machine.run_append _ before post]
    exact behind.stack

/-- A comment between the two halves of a keyword in the body of a rule. Its text has a star,
    a slash, braces and a quote; the halves make one keyword. -/
theorem comment_transparent_in_keyword :
    Context.Unquoted (Machine.run { file := "a.css" } ".a\x7b@med".toList).1.stack ∧
      Unclosing "* / \x7b ' \x7d *".toList ∧
      (Machine.run { file := "a.css" } (".a\x7b@med".toList ++ comment "* / \x7b ' \x7d *".toList ++
        "ia".toList)).1.stack = [.atRule .header, .ruleBody] := by
  have unquoted : Context.Unquoted
      (Machine.run { file := "a.css" } ".a\x7b@med".toList).1.stack := by
    have stack : (Machine.run { file := "a.css" } ".a\x7b@med".toList).1.stack = [.ruleBody] := by
      decide
    rw [stack]
    trivial
  have unclosing : Unclosing "* / \x7b ' \x7d *".toList := by decide
  have same := ((comment_transparent "a.css" ".a\x7b@med".toList _ unquoted unclosing).2
    "ia".toList).2
  refine ⟨unquoted, unclosing, same.trans ?_⟩
  decide

end SelectorLint.Stylesheet
