import SelectorLint.Proofs.Stylesheet.Quotation
import SelectorLint.Stylesheet.Prelude
import SelectorLint.Text.Blank

/-!
# A grammar of stylesheets

A sheet is a sequence of items. An item is passed over, or it is a rule. What is passed
over is a blank, a closing brace that stands alone, or an at-rule up to its end. A rule
has a head, an opening brace, any number of items that are passed over, declarations and
a closing brace. Braces and semicolons in strings do not count.

An item carries the proof of its own form, so every list of items is a sheet. The grammar
is stated on texts alone. It says which prelude each rule has and where the prelude is
reported; it does not mention the contexts or the token of a machine.

Texts in which a comment opens are left out: a comment may stand anywhere outside strings
and is no item of its own.
-/

namespace SelectorLint.Stylesheet.Grammar

open Text

/-- The keywords of at-rules that end with a semicolon. -/
def statementKeywords : List (List Char) :=
  ["@charset".toList, "@import".toList, "@namespace".toList]

/-- The keywords of at-rules that are passed over up to the brace that opens their block. -/
def headerKeywords : List (List Char) := ["@document".toList, "@media".toList]

/-- The keywords of at-rules that are passed over up to the first closing brace. -/
def definitionKeywords : List (List Char) := ["@font-face".toList, "@page".toList]

/-- The keyword of at-rules that are passed over until their braces balance. -/
def keyframesKeyword : List Char := "@keyframes".toList

/-- The eight keywords. -/
def keywords : List (List Char) :=
  statementKeywords ++ headerKeywords ++ definitionKeywords ++ [keyframesKeyword]

/-- A text in which every string is closed, no comment opens and a given character does
    not occur outside strings. -/
structure Free (stop : Char) (text : List Char) : Prop where
  /-- Every string is closed. -/
  closed : Closed text
  /-- No comment opens. -/
  uncommented : Uncommented text
  /-- The character does not occur outside strings. -/
  absent : stop ∉ outside text

instance (stop : Char) (text : List Char) : Decidable (Free stop text) :=
  decidable_of_iff (Closed text ∧ Uncommented text ∧ stop ∉ outside text)
    ⟨fun ⟨closed, uncommented, absent⟩ => ⟨closed, uncommented, absent⟩,
      fun ⟨closed, uncommented, absent⟩ => ⟨closed, uncommented, absent⟩⟩

/-- A text whose outside braces balance, at least one pair of them. -/
def Balanced (text : List Char) : Prop :=
  0 < (outside text).count '{' ∧ (outside text).count '{' = (outside text).count '}'

instance (text : List Char) : Decidable (Balanced text) :=
  inferInstanceAs (Decidable (_ ∧ _))

/-- A text that is passed over. -/
inductive Passed : List Char → Prop where
  /-- A blank. -/
  | blank (c : Char) (blank : isBlank c = true) : Passed [c]
  /-- A closing brace that stands alone. -/
  | brace : Passed ['}']
  /-- An at-rule that ends with its first semicolon outside strings. -/
  | statement (keyword rest : List Char) (known : keyword ∈ statementKeywords)
      (free : Free ';' rest) : Passed (keyword ++ rest ++ [';'])
  /-- An at-rule up to its first opening brace outside strings. What its block holds
      are items of their own. -/
  | header (keyword rest : List Char) (known : keyword ∈ headerKeywords)
      (free : Free '{' rest) : Passed (keyword ++ rest ++ ['{'])
  /-- An at-rule up to its first closing brace outside strings. -/
  | definition (keyword rest : List Char) (known : keyword ∈ definitionKeywords)
      (free : Free '}' rest) : Passed (keyword ++ rest ++ ['}'])
  /-- An at-rule up to the first character at which its braces balance. -/
  | keyframes (block : List Char) (uncommented : Uncommented block) (balanced : Balanced block)
      (first : ∀ cut < block.length, ¬Balanced (block.take cut)) :
      Passed (keyframesKeyword ++ block)

/-- A text that can begin a token and is not passed over: its first character, if any, is
    neither blank nor a closing brace, and it starts with none of the keywords. -/
structure Begins (text : List Char) : Prop where
  /-- The first character is no boundary by itself. -/
  first : ∀ c ∈ text.head?, isBlank c = false ∧ c ≠ '}'
  /-- The text does not start with a keyword. -/
  noKeyword : ∀ keyword ∈ keywords, ¬keyword <+: text

instance (text : List Char) : Decidable (Begins text) :=
  decidable_of_iff (text.head?.all (fun c => isBlank c = false ∧ c ≠ '}') = true ∧
      ∀ keyword ∈ keywords, ¬keyword <+: text) <| by
    simp only [Option.all_eq_true, decide_eq_true_eq]
    exact ⟨fun ⟨first, noKeyword⟩ => ⟨first, noKeyword⟩,
      fun ⟨first, noKeyword⟩ => ⟨first, noKeyword⟩⟩

/-- A rule with a body that holds something. -/
structure Rule where
  /-- The text in front of the opening brace. -/
  head : List Char
  /-- What is passed over between the opening brace and the declarations. -/
  passed : List (List Char)
  /-- The declarations, up to the closing brace. -/
  core : List Char
  /-- The head begins a token. -/
  headBegins : Begins head
  /-- The head ends at the first opening brace outside strings. -/
  headFree : Free '{' head
  /-- Each text in front of the declarations is passed over. -/
  passedOver : ∀ text ∈ passed, Passed text
  /-- There are declarations. -/
  coreNonempty : core ≠ []
  /-- The declarations begin a token. -/
  coreBegins : Begins core
  /-- The declarations end at the first closing brace outside strings. -/
  coreFree : Free '}' core

/-- The text of a rule. -/
def Rule.text (rule : Rule) : List Char :=
  rule.head ++ '{' :: (rule.passed.flatten ++ (rule.core ++ ['}']))

/-- One part of a sheet. -/
inductive Item where
  /-- A text that is passed over. -/
  | passed (text : List Char) (passedOver : Passed text)
  /-- A rule. -/
  | rule (written : Rule)

/-- The text of an item. -/
def Item.text : Item → List Char
  | .passed text _ => text
  | .rule written => written.text

/-- The text of a sheet. -/
def text (items : List Item) : List Char := items.flatMap Item.text

/-- Where the next prelude begins behind a text that ends an item: at the last character of
    that text, and at the first column of the first line where there is none. -/
def boundary (before : List Char) : Position :=
  if before = [] then ⟨1, 1⟩ else Position.after before

/-- The prelude of a rule behind a text: the head without blanks at its ends, reported from
    the last boundary to two columns in front of the opening brace. -/
def Rule.prelude (file : String) (before : List Char) (rule : Rule) : Prelude where
  text := trim rule.head
  span := ⟨file, boundary before, (Position.after (before ++ rule.head ++ ['{'])).beforeBrace⟩

/-- The preludes of an item behind a text: that of a rule, and none of what is passed over. -/
def Item.preludes (file : String) (before : List Char) : Item → List Prelude
  | .passed _ _ => []
  | .rule written => [written.prelude file before]

/-- The preludes of the items that follow a text, in order. -/
def preludesFrom (file : String) (before : List Char) : List Item → List Prelude
  | [] => []
  | item :: rest => item.preludes file before ++ preludesFrom file (before ++ item.text) rest

/-- The preludes of a sheet. -/
def preludes (file : String) (items : List Item) : List Prelude := preludesFrom file [] items

end SelectorLint.Stylesheet.Grammar
