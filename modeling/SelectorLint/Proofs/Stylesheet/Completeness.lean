import SelectorLint.Proofs.Stylesheet.AtRules

/-!
# Completeness of the machine for sheets

Reading a sheet gives the prelude of every rule of the sheet, in order and at its span,
and nothing else; behind the sheet the machine is at the top level with an empty token.
The proof reads one item at a time. An item that is passed over moves the boundary and
changes nothing else, at the top level as in the body of a rule. A rule moves the boundary
and emits its prelude. A run over a sheet composes these by induction on its items.
-/

namespace SelectorLint.Stylesheet

open Text

/-- The contexts in which tokens begin, each with the character that ends a token there. -/
inductive Context.Between : List Context → Char → Prop where
  /-- At the top level an opening brace ends the head of a rule. -/
  | topLevel : Between [] '{'
  /-- In the body of a rule a closing brace ends the declarations. -/
  | body : Between [.ruleBody] '}'

/-- Between tokens no string or comment is open. -/
theorem Context.Between.unquoted {outer : List Context} {stop : Char}
    (between : Between outer stop) : Unquoted outer := by
  cases between <;> trivial

/-- Between tokens only a brace matters. -/
theorem Context.Between.isBrace {outer : List Context} {stop : Char}
    (between : Between outer stop) : stop = '{' ∨ stop = '}' := by
  cases between with
  | topLevel => exact .inl rfl
  | body => exact .inr rfl

namespace Machine

/-- A character other than the one that ends a token leaves a token without keyword open. -/
theorem readPlain_between (machine : Machine) {stop c : Char}
    (between : Context.Between machine.stack stop)
    (noRule : AtRule.ofToken? machine.token = none) (other : c ≠ stop) :
    machine.readPlain c = (machine, none) := by
  generalize stack : machine.stack = outer at between
  cases between with
  | topLevel => simp only [readPlain, stack, noRule, if_neg other]
  | body => simp only [readPlain, stack, noRule, if_neg other]

/-- A token that has become a keyword enters its at-rule. -/
theorem readPlain_keyword (machine : Machine) {stop c : Char} {rule : AtRule}
    (between : Context.Between machine.stack stop)
    (begins : AtRule.ofToken? machine.token = some rule) :
    machine.readPlain c = (machine.enter (.atRule rule), none) := by
  generalize stack : machine.stack = outer at between
  cases between with
  | topLevel => simp only [readPlain, stack, begins]
  | body => simp only [readPlain, stack, begins]

/-- Text that begins a token and does not hold the character that ends one is a stretch. -/
theorem stretch_between (machine : Machine) {outer : List Context} {stop : Char}
    {text : List Char} (between : Context.Between outer stop) (fresh : machine.token = [])
    (begins : Grammar.Begins text) (free : Grammar.Free stop text) :
    Stretch machine (fun _ => outer) text where
  unquoted _ := between.unquoted
  uncommented := free.uncommented
  apart := by
    rw [fresh]
    decide
  begun _ := begins.first
  goesOn before c part closed noQuote := by
    have noRule : AtRule.ofToken? (before ++ [c]) = none :=
      AtRule.ofToken?_of_isPrefix part ((AtRule.ofToken?_eq_none_iff text).mpr begins.noKeyword)
    have other : c ≠ stop := by
      rintro rfl
      have seen := outside_isPrefix _ _ part
      rw [outside_concat, if_pos ⟨closed, noQuote⟩] at seen
      exact free.absent (seen.subset (by simp))
    apply readPlain_between _ _ _ other
    · exact between
    · rw [taken_token, fresh]
      exact noRule

/-- Without its last character a keyword is text that begins a token, holds no brace and is
    no keyword yet. -/
theorem keyword_front (keyword : List Char) (known : keyword ∈ Grammar.keywords) :
    Grammar.Begins keyword.dropLast ∧ Grammar.Free '{' keyword.dropLast ∧
      Grammar.Free '}' keyword.dropLast := by
  have facts : ∀ keyword ∈ Grammar.keywords, Grammar.Begins keyword.dropLast ∧
      Grammar.Free '{' keyword.dropLast ∧ Grammar.Free '}' keyword.dropLast := by decide
  exact facts keyword known

/-- The last character of a keyword opens no string or comment, and a keyword is no boundary. -/
theorem keyword_last (keyword : List Char) (known : keyword ∈ Grammar.keywords) :
    2 ≤ keyword.length ∧ ∀ c ∈ keyword.getLast?, isQuote c = false ∧ c ≠ '*' ∧ c ≠ '/' := by
  have facts : ∀ keyword ∈ Grammar.keywords, 2 ≤ keyword.length ∧
      keyword.getLast?.all (fun c => isQuote c = false ∧ c ≠ '*' ∧ c ≠ '/') = true := by decide
  obtain ⟨long, last⟩ := facts keyword known
  simp only [Option.all_eq_true, decide_eq_true_eq] at last
  exact ⟨long, last⟩

/-- Reading a keyword enters its at-rule with the keyword as token. -/
theorem run_keyword (machine : Machine) {stop : Char} {keyword : List Char} {rule : AtRule}
    (between : Context.Between machine.stack stop) (fresh : machine.token = [])
    (known : keyword ∈ Grammar.keywords) (begins : AtRule.ofToken? keyword = some rule) :
    machine.run keyword = (machine.taken keyword (.atRule rule :: machine.stack), []) := by
  obtain ⟨long, lastFacts⟩ := keyword_last keyword known
  obtain ⟨frontBegins, noOpening, noClosing⟩ := keyword_front keyword known
  obtain ⟨front, c, rfl⟩ : ∃ front c, keyword = front ++ [c] := by
    refine ⟨keyword.dropLast, keyword.getLast (List.ne_nil_of_length_pos (by omega)), ?_⟩
    rw [List.dropLast_concat_getLast]
  rw [List.dropLast_concat] at frontBegins noOpening noClosing
  obtain ⟨noQuote, noStar, _⟩ := lastFacts c (by simp)
  have free : Grammar.Free stop front := by
    rcases between.isBrace with rfl | rfl
    · exact noOpening
    · exact noClosing
  have stretch : Stretch machine (fun _ => machine.stack) front :=
    stretch_between machine between fresh frontBegins free
  have noBoundary (empty : machine.token ++ front = []) : isBlank c = false ∧ c ≠ '}' := by
    obtain ⟨_, rfl⟩ := List.append_eq_nil_iff.mp empty
    exact absurd long (by simp)
  have token : AtRule.ofToken? (machine.taken (front ++ [c]) machine.stack).token = some rule := by
    rw [taken_token, fresh]
    exact begins
  rw [stretch.run_concat rfl c free.closed noQuote noStar noBoundary,
    readPlain_keyword (machine.taken (front ++ [c]) machine.stack) between token]
  rfl

/-- The machine behind a text that ended a token: the boundary is the last character read,
    and the contexts are what they were. -/
def moved (machine : Machine) (text : List Char) : Machine :=
  (machine.taken text machine.stack).cut

/-- Text taken in two parts. -/
theorem taken_taken (machine : Machine) (first second : List Char) (stack other : List Context) :
    (machine.taken first stack).taken second other = machine.taken (first ++ second) other := by
  simp only [taken, List.append_assoc, List.foldl_append]

/-- Moving behind two texts in turn. -/
theorem moved_moved (machine : Machine) (first second : List Char) :
    (machine.moved first).moved second = machine.moved (first ++ second) := by
  simp only [moved, taken, cut, List.foldl_append]

/-- Behind its own boundary, a machine with an empty token has moved by nothing. -/
theorem moved_nil (machine : Machine) (fresh : machine.token = [])
    (atBoundary : machine.tokenStart = machine.position) : machine.moved [] = machine := by
  cases machine
  simp_all only [moved, taken, cut, List.foldl_nil]

/-- An at-rule is passed over from its keyword to the character that ends it. -/
theorem run_passed_atRule (machine : Machine) {stop c : Char} {keyword rest : List Char}
    {rule last : AtRule} (between : Context.Between machine.stack stop)
    (fresh : machine.token = []) (known : keyword ∈ Grammar.keywords)
    (begins : AtRule.ofToken? keyword = some rule) (closed : Closed rest)
    (uncommented : Uncommented rest) (noQuote : isQuote c = false) (noStar : c ≠ '*')
    (unfinished : (outside rest).foldlM AtRule.advance? rule = some last)
    (ends : last.advance? c = none) :
    machine.run (keyword ++ rest ++ [c]) =
      (machine.moved (keyword ++ rest ++ [c]), [.skipped last (keyword ++ rest ++ [c])]) := by
  obtain ⟨long, lastFacts⟩ := keyword_last keyword known
  have token : (machine.taken keyword (.atRule rule :: machine.stack)).token = keyword := by
    rw [taken_token, fresh, List.nil_append]
  have begun : (machine.taken keyword (.atRule rule :: machine.stack)).token ≠ [] := by
    rw [token]
    exact List.ne_nil_of_length_pos (by omega)
  have apart :
      (machine.taken keyword (.atRule rule :: machine.stack)).token.getLast? ≠ some '/' := by
    rw [token]
    intro slash
    exact (lastFacts '/' slash).2.2 rfl
  have passed := run_atRule (machine.taken keyword (.atRule rule :: machine.stack)) rule last
    machine.stack rest c rfl between.unquoted begun apart closed uncommented noQuote noStar
    unfinished ends
  rw [List.append_assoc, run_append, run_keyword machine between fresh known begins]
  dsimp only
  rw [passed, token, taken_taken]
  rfl

/-- An at-rule that ends with the first of one character outside strings is passed over up
    to that character. -/
theorem run_passed_until (machine : Machine) {stop c : Char} {keyword rest : List Char}
    {rule : AtRule} (between : Context.Between machine.stack stop) (fresh : machine.token = [])
    (known : keyword ∈ Grammar.keywords) (begins : AtRule.ofToken? keyword = some rule)
    (free : Grammar.Free c rest) (noQuote : isQuote c = false) (noStar : c ≠ '*')
    (goesOn : ∀ other, other ≠ c → rule.advance? other = some rule)
    (ends : rule.advance? c = none) :
    machine.run (keyword ++ rest ++ [c]) =
      (machine.moved (keyword ++ rest ++ [c]), [.skipped rule (keyword ++ rest ++ [c])]) := by
  have unfinished : (outside rest).foldlM AtRule.advance? rule = some rule := by
    apply AtRule.foldlM_advance?_of_forall
    intro other member
    exact goesOn other (ne_of_mem_of_not_mem member free.absent)
  exact run_passed_atRule machine between fresh known begins free.closed free.uncommented
    noQuote noStar unfinished ends

/-- An at-rule of keyframes is passed over up to the character at which its braces balance.
    That character changes the counts, so it is a brace outside strings. -/
theorem run_passed_keyframes (machine : Machine) {stop : Char} {block : List Char}
    (between : Context.Between machine.stack stop) (fresh : machine.token = [])
    (uncommented : Uncommented block) (balanced : Grammar.Balanced block)
    (first : ∀ cut < block.length, ¬Grammar.Balanced (block.take cut)) :
    ∃ last, machine.run (Grammar.keyframesKeyword ++ block) =
      (machine.moved (Grammar.keyframesKeyword ++ block),
        [.skipped last (Grammar.keyframesKeyword ++ block)]) := by
  have nonempty : block ≠ [] := by
    rintro rfl
    exact absurd balanced (by decide)
  obtain ⟨body, c, rfl⟩ : ∃ body c, block = body ++ [c] :=
    ⟨_, _, (List.dropLast_concat_getLast nonempty).symm⟩
  have never (part : List Char) (isPart : part <+: body) : ¬Grammar.Balanced part := by
    have shorter : part.length < (body ++ [c]).length := by
      have length := isPart.length_le
      simp only [List.length_append, List.length_singleton]
      omega
    have same : (body ++ [c]).take part.length = part :=
      (List.prefix_iff_eq_take.mp (isPart.trans (List.prefix_append body [c]))).symm
    exact same ▸ first part.length shorter
  have changes : ¬((outside (body ++ [c])).count '{' = (outside body).count '{' ∧
      (outside (body ++ [c])).count '}' = (outside body).count '}') := by
    rintro ⟨sameOpening, sameClosing⟩
    apply never body (List.prefix_refl body)
    rwa [Grammar.Balanced, sameOpening, sameClosing] at balanced
  have isOutside : Closed body ∧ isQuote c = false := by
    by_contra inString
    apply changes
    rw [outside_concat, if_neg inString, List.append_nil]
    exact ⟨rfl, rfl⟩
  rw [Grammar.Balanced] at balanced
  rw [outside_concat, if_pos isOutside] at balanced changes
  have noStar : c ≠ '*' := by
    rintro rfl
    apply changes
    simp
  have bodyUncommented : Uncommented body := uncommented.of_isPrefix (List.prefix_append body [c])
  have ends : (AtRule.keyframes ((outside body).count '{') ((outside body).count '}')).advance? c =
      none := by
    rw [AtRule.advance?_keyframes, if_pos balanced]
  have known : Grammar.keyframesKeyword ∈ Grammar.keywords := by decide
  have begins : AtRule.ofToken? Grammar.keyframesKeyword = some (.keyframes 0 0) := by decide
  have run := run_passed_atRule machine between fresh known begins isOutside.1
    bodyUncommented isOutside.2 noStar (AtRule.foldlM_advance?_keyframes body never) ends
  rw [List.append_assoc] at run
  exact ⟨_, run⟩

/-- A text that is passed over moves the boundary and emits no prelude, at the top level and
    in the body of a rule alike. -/
theorem run_passed (machine : Machine) {stop : Char} {text : List Char}
    (between : Context.Between machine.stack stop) (fresh : machine.token = [])
    (passed : Grammar.Passed text) :
    (machine.run text).1 = machine.moved text ∧
      (machine.run text).2.filterMap Emission.prelude? = [] := by
  cases passed with
  | blank c blank =>
    rw [run_singleton, step_boundary machine between.unquoted c fresh (.inl blank)]
    exact ⟨rfl, rfl⟩
  | brace =>
    rw [run_singleton, step_boundary machine between.unquoted '}' fresh (.inr rfl)]
    exact ⟨rfl, rfl⟩
  | statement keyword rest known free =>
    have begins : ∀ keyword ∈ Grammar.statementKeywords,
        AtRule.ofToken? keyword = some .statement := by decide
    rw [run_passed_until machine between fresh (by simp [Grammar.keywords, known])
      (begins keyword known) free (by decide) (by decide) (fun _ other => if_neg other) rfl]
    exact ⟨rfl, rfl⟩
  | header keyword rest known free =>
    have begins : ∀ keyword ∈ Grammar.headerKeywords,
        AtRule.ofToken? keyword = some .header := by decide
    rw [run_passed_until machine between fresh (by simp [Grammar.keywords, known])
      (begins keyword known) free (by decide) (by decide) (fun _ other => if_neg other) rfl]
    exact ⟨rfl, rfl⟩
  | definition keyword rest known free =>
    have begins : ∀ keyword ∈ Grammar.definitionKeywords,
        AtRule.ofToken? keyword = some .definition := by decide
    rw [run_passed_until machine between fresh (by simp [Grammar.keywords, known])
      (begins keyword known) free (by decide) (by decide) (fun _ other => if_neg other) rfl]
    exact ⟨rfl, rfl⟩
  | keyframes block uncommented balanced first =>
    obtain ⟨last, run⟩ :=
      run_passed_keyframes machine between fresh uncommented balanced first
    rw [run]
    exact ⟨rfl, rfl⟩

/-- Texts that are passed over one after the other, from a boundary on. -/
theorem run_passed_flatten (machine : Machine) {stop : Char} (texts : List (List Char))
    (between : Context.Between machine.stack stop) (fresh : machine.token = [])
    (atBoundary : machine.tokenStart = machine.position)
    (passed : ∀ text ∈ texts, Grammar.Passed text) :
    (machine.run texts.flatten).1 = machine.moved texts.flatten ∧
      (machine.run texts.flatten).2.filterMap Emission.prelude? = [] := by
  induction texts generalizing machine with
  | nil => exact ⟨(moved_nil machine fresh atBoundary).symm, rfl⟩
  | cons text rest inductionHypothesis =>
    obtain ⟨behindText, noPrelude⟩ := run_passed machine between fresh (passed text (by simp))
    obtain ⟨behindRest, noFurther⟩ := inductionHypothesis (machine.moved text) between rfl rfl
      fun other member => passed other (List.mem_cons_of_mem text member)
    rw [List.flatten_cons, run_append, behindText, behindRest, moved_moved,
      List.filterMap_append, noPrelude, noFurther]
    exact ⟨rfl, rfl⟩

/-- The opening brace behind a head at the top level emits the prelude and enters the body. -/
theorem run_head (machine : Machine) (head : List Char) (begins : Grammar.Begins head)
    (free : Grammar.Free '{' head) (topLevel : machine.stack = []) (fresh : machine.token = []) :
    machine.run (head ++ ['{']) =
      (((machine.taken (head ++ ['{']) []).enter .ruleBody).cut,
        [.opened (machine.taken (head ++ ['{']) []).head]) := by
  have stretch : Stretch machine (fun _ => []) head :=
    stretch_between machine .topLevel fresh begins free
  have noRule : AtRule.ofToken? (machine.taken (head ++ ['{']) []).token = none := by
    rw [taken_token, fresh]
    exact AtRule.ofToken?_concat_brace head '{' (.inl rfl)
      ((AtRule.ofToken?_eq_none_iff head).mpr begins.noKeyword)
  rw [stretch.run_concat topLevel '{' free.closed (by decide) (by decide) (fun _ => by decide)]
  simp only [readPlain, taken_stack, noRule]
  rfl

/-- The closing brace behind declarations leaves the body. -/
theorem run_core (machine : Machine) (rule : Grammar.Rule) (inBody : machine.stack = [.ruleBody])
    (fresh : machine.token = []) :
    machine.run (rule.core ++ ['}']) = ((machine.taken (rule.core ++ ['}']) []).cut, []) := by
  have stretch : Stretch machine (fun _ => [.ruleBody]) rule.core :=
    stretch_between machine .body fresh rule.coreBegins rule.coreFree
  have noRule : AtRule.ofToken? (machine.taken (rule.core ++ ['}']) [.ruleBody]).token = none := by
    rw [taken_token, fresh]
    exact AtRule.ofToken?_concat_brace rule.core '}' (.inr rfl)
      ((AtRule.ofToken?_eq_none_iff rule.core).mpr rule.coreBegins.noKeyword)
  have noBoundary (empty : machine.token ++ rule.core = []) : isBlank '}' = false ∧ '}' ≠ '}' :=
    absurd (List.append_eq_nil_iff.mp empty).2 rule.coreNonempty
  rw [stretch.run_concat inBody '}' rule.coreFree.closed (by decide) (by decide) noBoundary]
  simp only [readPlain, taken_stack, noRule]
  rfl

/-- A rule moves the boundary behind itself and emits one prelude: its head, reported from
    the boundary in front of the rule. -/
theorem run_rule (machine : Machine) (rule : Grammar.Rule) (topLevel : machine.stack = [])
    (fresh : machine.token = []) :
    (machine.run rule.text).1 = machine.moved rule.text ∧
      (machine.run rule.text).2.filterMap Emission.prelude? =
        [⟨trim rule.head, ⟨machine.file, machine.tokenStart,
          ((rule.head ++ ['{']).foldl Position.advance machine.position).beforeBrace⟩⟩] := by
  have parts : rule.text =
      (rule.head ++ ['{']) ++ (rule.passed.flatten ++ (rule.core ++ ['}'])) := by
    simp only [Grammar.Rule.text, List.append_assoc, List.cons_append, List.nil_append]
  have head : (machine.taken (rule.head ++ ['{']) []).head =
      ⟨trim rule.head, ⟨machine.file, machine.tokenStart,
        ((rule.head ++ ['{']).foldl Position.advance machine.position).beforeBrace⟩⟩ := by
    simp only [Machine.head, taken, fresh, List.nil_append, List.dropLast_concat]
  obtain ⟨behindPassed, noPrelude⟩ := run_passed_flatten
    ((machine.taken (rule.head ++ ['{']) []).enter .ruleBody).cut rule.passed .body rfl rfl
    rule.passedOver
  have behindCore := run_core
    (((machine.taken (rule.head ++ ['{']) []).enter .ruleBody).cut.moved rule.passed.flatten)
    rule rfl rfl
  have behindRule :
      ((((machine.taken (rule.head ++ ['{']) []).enter .ruleBody).cut.moved
        rule.passed.flatten).taken (rule.core ++ ['}']) []).cut = machine.moved rule.text := by
    simp only [moved, taken, cut, enter, parts, topLevel, List.foldl_append]
  rw [parts, run_append,
    run_head machine rule.head rule.headBegins rule.headFree topLevel fresh]
  dsimp only
  rw [run_append, behindPassed, behindCore, ← parts]
  refine ⟨behindRule, ?_⟩
  rw [List.append_nil, List.filterMap_append, noPrelude, List.append_nil, head]
  rfl

end Machine

namespace Grammar

/-- What is passed over is not empty, so it moves the boundary. -/
theorem Passed.ne_nil {text : List Char} (passed : Passed text) : text ≠ [] := by
  cases passed with
  | blank c _ => exact List.cons_ne_nil c []
  | brace => exact List.cons_ne_nil '}' []
  | statement keyword rest _ _ => exact List.concat_ne_nil ';' (keyword ++ rest)
  | header keyword rest _ _ => exact List.concat_ne_nil '{' (keyword ++ rest)
  | definition keyword rest _ _ => exact List.concat_ne_nil '}' (keyword ++ rest)
  | keyframes block _ _ _ =>
    have nonempty : keyframesKeyword ≠ [] := by decide
    exact List.append_ne_nil_of_left_ne_nil nonempty block

/-- Behind an item that is not empty, the boundary is the last character of the item. -/
theorem boundary_append (before text : List Char) (nonempty : text ≠ []) :
    boundary (before ++ text) = text.foldl Position.advance (Position.after before) := by
  have longer : before ++ text ≠ [] := by simp [nonempty]
  rw [boundary, if_neg longer, Position.after, List.foldl_append]
  rfl

/-- The machine at the top level behind a text that ends an item. -/
def machineBehind (file : String) (before : List Char) : Machine :=
  { file, position := .after before, tokenStart := boundary before }

/-- Moving behind an item. -/
theorem machineBehind_moved (file : String) (before text : List Char) (nonempty : text ≠ []) :
    (machineBehind file before).moved text = machineBehind file (before ++ text) := by
  simp only [machineBehind, Machine.moved, Machine.taken, Machine.cut,
    boundary_append before text nonempty]
  simp only [Position.after, List.foldl_append]

/-- A run over one item emits its preludes and ends behind it. -/
theorem run_item (file : String) (before : List Char) (item : Item) :
    ((machineBehind file before).run item.text).1 = machineBehind file (before ++ item.text) ∧
      ((machineBehind file before).run item.text).2.filterMap Emission.prelude? =
        item.preludes file before := by
  cases item with
  | passed skipped passed =>
    obtain ⟨behind, noPrelude⟩ :=
      Machine.run_passed (machineBehind file before) .topLevel rfl passed
    rw [machineBehind_moved file before skipped passed.ne_nil] at behind
    exact ⟨behind, noPrelude⟩
  | rule written =>
    have nonempty : written.text ≠ [] :=
      List.append_ne_nil_of_right_ne_nil written.head (List.cons_ne_nil '{' _)
    have braceAt : (written.head ++ ['{']).foldl Position.advance (Position.after before) =
        Position.after (before ++ written.head ++ ['{']) := by
      simp only [Position.after, List.foldl_append]
    obtain ⟨behind, onePrelude⟩ := Machine.run_rule (machineBehind file before) written rfl rfl
    rw [machineBehind_moved file before written.text nonempty] at behind
    refine ⟨behind, onePrelude.trans ?_⟩
    simp only [Item.preludes, Rule.prelude, machineBehind, braceAt]

/-- A run over items that follow a text emits their preludes in order and ends behind the
    last of them. -/
theorem run_items (file : String) (before : List Char) (items : List Item) :
    ((machineBehind file before).run (text items)).1 =
        machineBehind file (before ++ text items) ∧
      ((machineBehind file before).run (text items)).2.filterMap Emission.prelude? =
        preludesFrom file before items := by
  induction items generalizing before with
  | nil =>
    rw [text, List.flatMap_nil, List.append_nil]
    exact ⟨rfl, rfl⟩
  | cons item rest inductionHypothesis =>
    have whole : text (item :: rest) = item.text ++ text rest := List.flatMap_cons
    obtain ⟨behindItem, itemPreludes⟩ := run_item file before item
    obtain ⟨behindRest, restPreludes⟩ := inductionHypothesis (before ++ item.text)
    rw [whole, Machine.run_append, behindItem, ← List.append_assoc, List.filterMap_append,
      itemPreludes, restPreludes]
    exact ⟨behindRest, rfl⟩

/-- Reading a sheet finds the preludes of its rules, each with its text and its span, in
    order, and no other prelude. Behind the sheet the machine is at the top level, with an
    empty token and the boundary at the last character. -/
theorem preludes_text (file : String) (items : List Item) :
    Stylesheet.preludes file (text items) = preludes file items ∧
      (Machine.run { file } (text items)).1 = machineBehind file (text items) := by
  have fresh : machineBehind file [] = { file } := rfl
  obtain ⟨behind, found⟩ := run_items file [] items
  rw [fresh] at behind found
  exact ⟨found, behind⟩

/-- A sheet with an item of every form. A statement with a semicolon in a string, a block
    header, and a definition and a blank in the body of a rule are passed over, as are the
    brace that closes the block and keyframes with a brace in a string. -/
theorem preludes_text_every_form : ∃ items : List Item,
    text items = ("@import 'a;b';@media x\x7b.a \x7b@page\x7bb\x7d\n;c:'\x7d'\x7d\x7d" ++
        "@keyframes k\x7b0%\x7bd:'\x7d'\x7d\x7d").toList ∧
      Stylesheet.preludes "a.css" (text items) =
        [⟨".a".toList, ⟨"a.css", ⟨1, 23⟩, ⟨1, 25⟩⟩⟩] := by
  have passedOver : ∀ text ∈ ["@page".toList ++ "\x7bb".toList ++ ['}'], ['\n']], Passed text := by
    intro text member
    simp only [List.mem_cons, List.not_mem_nil, or_false] at member
    rcases member with rfl | rfl
    · exact .definition "@page".toList "\x7bb".toList (by decide) (by decide)
    · exact .blank '\n' (by decide)
  refine ⟨[
    .passed _ (.statement "@import".toList " 'a;b'".toList (by decide) (by decide)),
    .passed _ (.header "@media".toList " x".toList (by decide) (by decide)),
    .rule ⟨".a ".toList, _, ";c:'\x7d'".toList, by decide, by decide, passedOver, by decide,
      by decide, by decide⟩,
    .passed _ .brace,
    .passed _ (.keyframes " k\x7b0%\x7bd:'\x7d'\x7d\x7d".toList (by decide) (by decide)
      (by decide))], ?_, ?_⟩
  · rfl
  · exact (preludes_text "a.css" _).1.trans rfl

end Grammar

end SelectorLint.Stylesheet
