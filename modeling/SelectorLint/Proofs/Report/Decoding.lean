import Mathlib.Algebra.Order.BigOperators.Group.List
import Mathlib.Algebra.Order.Group.Nat
import Mathlib.Data.List.Forall2
import SelectorLint.Report
import SelectorLint.Toml.Scalar

/-!
# Reading a JSON report

Other programs take a report apart again: they read JSON, by the rules of JSON and not by the layout
that reports have, and look at the fields of each object. Such a reader stands here beside the
writer. It takes any gaps between tokens and every escape, and refuses what JSON refuses: controls
in strings, a surrogate alone, zeros in front of a number, a comma too many. Only the kinds of
values that reports do not use are left out of it.

Main statement: reading a report gives one object for each finding, in order, with the finding's
parts as they were, whatever characters are in them; the line in the object is the line of the text
report, and it can be put together again from the other fields.
-/

namespace SelectorLint.Report

open Stylesheet

namespace Json

/-! ## Reading JSON -/

/-- A character that may stand between two tokens. -/
def isGap (c : Char) : Bool := c == ' ' || c == '\t' || c == '\n' || c == '\r'

/-- A text without the gap in front of it. -/
def skipGap (text : List Char) : List Char := text.dropWhile isGap

/-- Reads four hexadecimal digits. -/
def readUnit : List Char → Option (Nat × List Char)
  | a :: b :: c :: d :: rest => do
    let a ← Toml.hexDigit? a
    let b ← Toml.hexDigit? b
    let c ← Toml.hexDigit? c
    let d ← Toml.hexDigit? d
    return (((a * 16 + b) * 16 + c) * 16 + d, rest)
  | _ => none

/-- Reads a character by its number. A number of more than four digits is written as two surrogates,
    each in an escape of its own. -/
def readNumbered (text : List Char) : Option (Char × List Char) := do
  let (unit, rest) ← readUnit text
  if unit.isValidChar then return (Char.ofNat unit, rest)
  else if 0xDC00 ≤ unit then none
  else
    match rest with
    | '\\' :: 'u' :: rest => do
      let (low, rest) ← readUnit rest
      if 0xDC00 ≤ low ∧ low < 0xE000 then
        return (Char.ofNat (0x10000 + (unit - 0xD800) * 0x400 + (low - 0xDC00)), rest)
      else none
    | _ => none

/-- The characters that have an escape of one letter, each behind its letter. -/
def letters : List (Char × Char) :=
  [('\x22', '\x22'), ('\\', '\\'), ('/', '/'), ('b', '\x08'), ('f', '\x0c'), ('n', '\n'),
   ('r', '\r'), ('t', '\t')]

/-- Reads one character of a string. A control must be escaped. -/
def readChar : List Char → Option (Char × List Char)
  | '\\' :: 'u' :: rest => readNumbered rest
  | '\\' :: letter :: rest => (letters.lookup letter).map (·, rest)
  | c :: rest => if c = '\\' ∨ c.toNat < 0x20 then none else some (c, rest)
  | [] => none

/-- Reads fewer than `bound` characters of a string and the quote behind them. -/
def readBody : Nat → List Char → Option (List Char × List Char)
  | 0, _ => none
  | bound + 1, text =>
    if text.head? = some '\x22' then some ([], text.tail)
    else do
      let first ← readChar text
      let further ← readBody bound first.2
      return (first.1 :: further.1, further.2)

/-- Reads a string between quotes. Each of its characters takes at least one of the text. -/
def readString : List Char → Option (List Char × List Char)
  | '\x22' :: rest => readBody rest.length rest
  | _ => none

/-- Reads a whole number. A zero stands in front of no other digit. -/
def readNumber (text : List Char) : Option (Nat × List Char) :=
  let digits := text.takeWhile Char.isDigit
  if digits = [] ∨ digits.head? = some '0' ∧ digits ≠ ['0'] then none
  else some (Nat.ofDigitChars 10 digits 0, text.dropWhile Char.isDigit)

section Sequence

variable {α : Type} (read : List Char → Option (α × List Char)) (closer : Char)

/-- Reads fewer than `bound` items, each behind a comma, and the closer behind them. -/
def readMore : Nat → List Char → Option (List α × List Char)
  | 0, _ => none
  | bound + 1, text =>
    match skipGap text with
    | [] => none
    | c :: rest =>
      if c = closer then some ([], rest)
      else if c = ',' then do
        let first ← read rest
        let further ← readMore bound first.2
        return (first.1 :: further.1, further.2)
      else none

/-- Reads items with commas between them, and the closer behind them. -/
def readList (text : List Char) : Option (List α × List Char) :=
  if (skipGap text).head? = some closer then some ([], (skipGap text).tail)
  else do
    let first ← read text
    let further ← readMore read closer first.2.length first.2
    return (first.1 :: further.1, further.2)

/-- Reads a name, a colon and a value. -/
def readField (text : List Char) : Option ((List Char × α) × List Char) := do
  let name ← readString (skipGap text)
  match skipGap name.2 with
  | ':' :: rest => do
    let value ← read rest
    return ((name.1, value.1), value.2)
  | _ => none

end Sequence

/-- Reads a value with fewer than `depth` arrays and objects around any part of it. -/
def readValue : Nat → List Char → Option (Json × List Char)
  | 0, _ => none
  | depth + 1, text =>
    match skipGap text with
    | '\x22' :: rest => (readString ('\x22' :: rest)).map fun read => (string read.1, read.2)
    | '[' :: rest =>
      (readList (readValue depth) ']' rest).map fun read => (array read.1, read.2)
    | '{' :: rest =>
      (readList (readField (readValue depth)) '}' rest).map fun read => (object read.1, read.2)
    | text => (readNumber text).map fun read => (number read.1, read.2)

/-- Reads a value off the front of a text, and what stands behind it. A value is not nested deeper
    than its text is long. -/
def read (text : List Char) : Option (Json × List Char) := readValue (text.length + 1) text

/-! ## Reading what was written -/

/-- A reader takes what was written for a value off the front of a text, whatever stands behind it
    except a digit, which could be part of a number. -/
def ReadsBack {α : Type} (read : List Char → Option (α × List Char)) (written : List Char)
    (value : α) : Prop :=
  ∀ rest, (∀ c ∈ rest.head?, c.isDigit = false) → read (written ++ rest) = some (value, rest)

/-- The line ends and indents of a report are gaps. -/
theorem isGap_of_mem_newline {level : Nat} {c : Char} (member : c ∈ newline level) :
    isGap c = true := by
  rcases List.mem_cons.mp member with rfl | blank
  · rfl
  · rw [List.eq_of_mem_replicate blank]
    rfl

/-- A gap in front is skipped, and what it is makes no difference. -/
theorem skipGap_append {gap : List Char} (isGap : ∀ c ∈ gap, isGap c = true) (text : List Char) :
    skipGap (gap ++ text) = skipGap text :=
  List.dropWhile_append_of_pos isGap

/-- A token in front stays. -/
theorem skipGap_cons {c : Char} (noGap : isGap c = false) (rest : List Char) :
    skipGap (c :: rest) = c :: rest :=
  List.dropWhile_cons_of_neg (by rw [noGap]; exact Bool.false_ne_true)

/-- A hexadecimal digit is read as its value. -/
theorem hexDigit?_digitChar {digit : Nat} (small : digit < 16) :
    Toml.hexDigit? (Nat.digitChar digit) = some digit := by
  have all : ∀ digit < 16, Toml.hexDigit? (Nat.digitChar digit) = some digit := by decide
  exact all digit small

/-- A control is read from the number that stands for it. -/
theorem readNumbered_control {c : Char} (control : c.toNat < 0x20) (rest : List Char) :
    readNumbered ('0' :: '0' :: Nat.digitChar (c.toNat / 16) :: Nat.digitChar (c.toNat % 16) ::
      rest) = some (c, rest) := by
  have zero : Toml.hexDigit? '0' = some 0 := by decide
  have number : c.toNat / 16 * 16 + c.toNat % 16 = c.toNat := Nat.div_add_mod' c.toNat 16
  have valid : c.toNat.isValidChar := .inl (by omega)
  simp [readNumbered, readUnit, zero, hexDigit?_digitChar (show c.toNat / 16 < 16 by omega),
    hexDigit?_digitChar (show c.toNat % 16 < 16 by omega), number, valid]

/-- A character is read from its escape. -/
theorem readChar_escape (c : Char) (rest : List Char) :
    readChar (escape c ++ rest) = some (c, rest) := by
  rw [escape]
  split_ifs with special backspace tab lineFeed formFeed carriageReturn control
  · rcases special with rfl | rfl <;> rfl
  · rw [backspace]
    rfl
  · rw [tab]
    rfl
  · rw [lineFeed]
    rfl
  · rw [formFeed]
    rfl
  · rw [carriageReturn]
    rfl
  · exact readNumbered_control control rest
  · rw [List.singleton_append, readChar, if_neg]
    · exact fun plain => (plain.elim (not_or.mp special).2 control)
    · rintro _ rfl
      exact absurd rfl (not_or.mp special).2
    · rintro _ _ rfl
      exact absurd rfl (not_or.mp special).2

/-- An escape does not begin like the end of a string. -/
theorem head?_escape_ne (c : Char) (rest : List Char) :
    (escape c ++ rest).head? ≠ some '\x22' := by
  rw [escape]
  split_ifs with special <;> simp_all

/-- The body of a string is read from the escapes of its characters, up to the quote behind them. -/
theorem readBody_escaped {bound : Nat} (text rest : List Char) (enough : text.length < bound) :
    readBody bound (text.flatMap escape ++ '\x22' :: rest) = some (text, rest) := by
  induction text generalizing bound with
  | nil =>
    obtain ⟨bound, rfl⟩ := Nat.exists_eq_succ_of_ne_zero (Nat.ne_zero_of_lt enough)
    rfl
  | cons c text inductionHypothesis =>
    obtain ⟨bound, rfl⟩ := Nat.exists_eq_succ_of_ne_zero (Nat.ne_zero_of_lt enough)
    rw [List.flatMap_cons, List.append_assoc, readBody, if_neg (head?_escape_ne c _),
      readChar_escape]
    have further := inductionHypothesis (Nat.lt_of_succ_lt_succ enough)
    simp [further]

/-- Where nothing is written as nothing, what is written is at least as long. -/
theorem length_le_flatMap {α : Type} {write : α → List Char} (some : ∀ item, write item ≠ [])
    (items : List α) : items.length ≤ (items.flatMap write).length := by
  have positive : ∀ length ∈ items.map fun item => (write item).length, 1 ≤ length := by
    rintro length member
    obtain ⟨item, _, rfl⟩ := List.mem_map.mp member
    exact List.length_pos_iff.mpr (some item)
  have bound := List.length_le_sum_of_one_le _ positive
  rwa [List.length_map, ← List.length_flatMap] at bound

/-- No character is written as nothing. -/
theorem escape_ne_nil (c : Char) : escape c ≠ [] := by
  rw [escape]
  split_ifs <;> exact List.cons_ne_nil _ _

/-- A string is read from what stands between its quotes. -/
theorem readString_quote (text rest : List Char) :
    readString (quote text ++ rest) = some (text, rest) := by
  have enough : text.length < (text.flatMap escape ++ '\x22' :: rest).length := by
    have longer := length_le_flatMap escape_ne_nil text
    rw [List.length_append, List.length_cons]
    omega
  rw [quote, List.cons_append, List.append_assoc, List.singleton_append, readString]
  exact readBody_escaped text rest enough

/-- A number is not written with a zero in front, unless it is zero. -/
theorem head?_toDigits_ne {number : Nat} (positive : 0 < number) :
    (Nat.toDigits 10 number).head? ≠ some '0' := by
  have digit : ∀ number < 10, 0 < number → Nat.digitChar number ≠ '0' := by decide
  induction number using Nat.strongRecOn with
  | ind number inductionHypothesis =>
    rcases Nat.lt_or_ge number 10 with small | large
    · rw [Nat.toDigits_of_lt_base small, List.head?_cons]
      exact fun isZero => digit number small positive (Option.some.inj isZero)
    · rw [Nat.toDigits_of_base_le (by decide) large,
        List.head?_append_of_ne_nil _ Nat.toDigits_ne_nil]
      exact inductionHypothesis (number / 10) (by omega) (by omega)

/-- A number is read from its digits. -/
theorem readNumber_toDigits (number : Nat) :
    ReadsBack readNumber (Nat.toDigits 10 number) number := by
  intro rest noDigit
  have digits : ∀ c ∈ Nat.toDigits 10 number, c.isDigit = true := fun c member =>
    Nat.isDigit_of_mem_toDigits (by decide) (Nat.le_refl 10) member
  have stops : rest.takeWhile Char.isDigit = [] ∧ rest.dropWhile Char.isDigit = rest := by
    cases rest with
    | nil => exact ⟨rfl, rfl⟩
    | cons c rest => simp [noDigit c rfl]
  have proper : ¬(Nat.toDigits 10 number = [] ∨
      (Nat.toDigits 10 number).head? = some '0' ∧ Nat.toDigits 10 number ≠ ['0']) := by
    rintro (empty | ⟨zero, longer⟩)
    · exact Nat.toDigits_ne_nil empty
    · rcases Nat.eq_zero_or_pos number with rfl | positive
      · exact longer (Nat.toDigits_zero 10)
      · exact head?_toDigits_ne positive zero
  simp only [readNumber, List.takeWhile_append_of_pos digits, List.dropWhile_append_of_pos digits,
    stops, List.append_nil]
  rw [if_neg proper, Nat.ofDigitChars_ten_toDigits]

/-! ## Sequences and nesting -/

section Sequence

variable {α : Type} {read : List Char → Option (α × List Char)} {closer : Char}
variable {write : α → List Char} {items : List α}

/-- Items, each behind a comma. -/
def more (write : α → List Char) (items : List α) : List Char :=
  items.flatMap fun item => ',' :: write item

/-- Items behind an opener: a comma in front of each but the first, and the closer on a line of its
    own. -/
def closed (closer : Char) (level : Nat) (write : α → List Char) : List α → List Char
  | [] => [closer]
  | first :: rest => write first ++ (more write rest ++ (newline level ++ [closer]))

/-- One item behind a comma, then the others. -/
theorem more_cons (write : α → List Char) (item : α) (items : List α) :
    more write (item :: items) = ',' :: (write item ++ more write items) := by
  rw [more, List.flatMap_cons, List.cons_append, more]

/-- No digit stands behind an item: what follows is a comma or the line of the closer. -/
theorem head?_more_not_digit (write : α → List Char) (items : List α) (level : Nat)
    (rest : List Char) :
    ∀ c ∈ (more write items ++ (newline level ++ rest)).head?, c.isDigit = false := by
  cases items with
  | nil =>
    rintro c ⟨⟩
    decide
  | cons item items =>
    rintro c ⟨⟩
    decide

/-- The items behind the first are read from what is written for them. -/
theorem readMore_more {bound : Nat} (level : Nat) (rest : List Char)
    (noGap : isGap closer = false) (noComma : ',' ≠ closer)
    (each : ∀ item ∈ items, ReadsBack read (write item) item) (enough : items.length < bound) :
    readMore read closer bound (more write items ++ (newline level ++ closer :: rest)) =
      some (items, rest) := by
  induction items generalizing bound with
  | nil =>
    obtain ⟨bound, rfl⟩ := Nat.exists_eq_succ_of_ne_zero (Nat.ne_zero_of_lt enough)
    have atCloser : skipGap (newline level ++ closer :: rest) = closer :: rest := by
      rw [skipGap_append fun c => isGap_of_mem_newline, skipGap_cons noGap]
    simp [more, readMore, atCloser]
  | cons item items inductionHypothesis =>
    obtain ⟨bound, rfl⟩ := Nat.exists_eq_succ_of_ne_zero (Nat.ne_zero_of_lt enough)
    rw [List.forall_mem_cons] at each
    have first := each.1 _ (head?_more_not_digit write items level (closer :: rest))
    have further := inductionHypothesis each.2 (Nat.lt_of_succ_lt_succ enough)
    have comma : isGap ',' = false := by decide
    rw [more_cons, List.cons_append, List.append_assoc, readMore, skipGap_cons comma]
    simp [noComma, first, further]

/-- Items are read from what is written for them, by a reader of items that does not take the
    closer for one. -/
theorem readList_closed (level : Nat) (rest : List Char)
    (noGap : isGap closer = false) (noComma : ',' ≠ closer)
    (refuses : ∀ text, (skipGap text).head? = some closer → read text = none)
    (each : ∀ item ∈ items, ReadsBack read (write item) item) :
    readList read closer (closed closer level write items ++ rest) = some (items, rest) := by
  cases items with
  | nil => simp [closed, readList, skipGap_cons noGap]
  | cons item items =>
    rw [List.forall_mem_cons] at each
    have enough :
        items.length < (more write items ++ (newline level ++ closer :: rest)).length := by
      have longer := length_le_flatMap (fun item => List.cons_ne_nil ',' (write item)) items
      rw [more, List.length_append, List.length_append, List.length_cons]
      omega
    have first := each.1 _ (head?_more_not_digit write items level (closer :: rest))
    have further := readMore_more level rest noGap noComma each.2 enough
    have text : closed closer level write (item :: items) ++ rest =
        write item ++ (more write items ++ (newline level ++ closer :: rest)) := by
      simp [closed]
    have noCloser : (skipGap (write item ++ (more write items ++
        (newline level ++ closer :: rest)))).head? ≠ some closer := by
      intro atCloser
      rw [refuses _ atCloser] at first
      cases first
    rw [text, readList, if_neg noCloser, first, Option.bind_eq_bind, Option.bind_some, further]
    rfl

/-- An item is shorter than what it stands in. -/
theorem length_lt_closed (closer : Char) (level : Nat) {item : α} (member : item ∈ items) :
    (write item).length < (closed closer level write items).length := by
  cases items with
  | nil => cases member
  | cons first rest =>
    simp only [closed, List.length_append, List.length_singleton]
    rcases List.mem_cons.mp member with rfl | further
    · omega
    · have part : (',' :: write item).length ≤ (more write rest).length := by
        rw [more, List.length_flatMap]
        exact List.le_sum_of_mem (List.mem_map_of_mem further)
      rw [List.length_cons] at part
      omega

end Sequence

/-! ## Values -/

/-- An item of an array, on a line of its own. -/
def itemLine (level : Nat) (item : Json) : List Char := newline level ++ pretty level item

/-- A field of an object, on a line of its own. -/
def fieldLine (level : Nat) (field : List Char × Json) : List Char :=
  newline level ++ (quote field.1 ++ (':' :: ' ' :: pretty level field.2))

/-- The items of an array behind the first are written behind commas, each on a line of its own. -/
theorem prettyItems_eq_more (level : Nat) (items : List Json) :
    prettyItems level items = more (itemLine level) items := by
  induction items with
  | nil => rfl
  | cons item items inductionHypothesis =>
    rw [prettyItems, inductionHypothesis, more_cons, itemLine]

/-- The fields of an object behind the first are written behind commas, each on a line of its
    own. -/
theorem prettyFields_eq_more (level : Nat) (fields : List (List Char × Json)) :
    prettyFields level fields = more (fieldLine level) fields := by
  induction fields with
  | nil => rfl
  | cons field fields inductionHypothesis =>
    rw [prettyFields, inductionHypothesis, more_cons, fieldLine]
    simp

/-- An array is its bracket with its items and the closing one behind it. -/
theorem pretty_array (level : Nat) (items : List Json) :
    pretty level (array items) = '[' :: closed ']' level (itemLine (level + 1)) items := by
  cases items with
  | nil => rfl
  | cons first rest => simp [pretty, closed, itemLine, prettyItems_eq_more]

/-- An object is its brace with its fields and the closing one behind it. -/
theorem pretty_object (level : Nat) (fields : List (List Char × Json)) :
    pretty level (object fields) = '{' :: closed '}' level (fieldLine (level + 1)) fields := by
  cases fields with
  | nil => rfl
  | cons first rest => simp [pretty, closed, fieldLine, prettyFields_eq_more]

/-- The gap in front of a value makes no difference. -/
theorem readValue_append (depth : Nat) {gap : List Char} (isGap : ∀ c ∈ gap, isGap c = true)
    (text : List Char) : readValue depth (gap ++ text) = readValue depth text := by
  cases depth with
  | zero => rfl
  | succ depth => rw [readValue, readValue, skipGap_append isGap]

/-- A closer is no value. -/
theorem readValue_closer (depth : Nat) {closer : Char} (isCloser : closer = ']' ∨ closer = '}')
    (text : List Char) (atCloser : (skipGap text).head? = some closer) :
    readValue depth text = none := by
  cases depth with
  | zero => rfl
  | succ depth =>
    obtain ⟨rest, behind⟩ := List.head?_eq_some_iff.mp atCloser
    rw [readValue, behind]
    rcases isCloser with rfl | rfl <;> rfl

/-- A closer is no field. -/
theorem readField_closer {α : Type} (read : List Char → Option (α × List Char)) (text : List Char)
    (atCloser : (skipGap text).head? = some '}') : readField read text = none := by
  obtain ⟨rest, behind⟩ := List.head?_eq_some_iff.mp atCloser
  rw [readField, behind]
  rfl

/-- An item is read from its line. -/
theorem readsBack_itemLine {depth level : Nat} {item : Json}
    (value : ReadsBack (readValue depth) (pretty level item) item) :
    ReadsBack (readValue depth) (itemLine level item) item := by
  intro rest noDigit
  rw [itemLine, List.append_assoc, readValue_append depth fun c => isGap_of_mem_newline]
  exact value rest noDigit

/-- A field is read from its line. -/
theorem readsBack_fieldLine {depth level : Nat} {field : List Char × Json}
    (value : ReadsBack (readValue depth) (pretty level field.2) field.2) :
    ReadsBack (readField (readValue depth)) (fieldLine level field) field := by
  intro rest noDigit
  have quoted : ∀ text, skipGap (quote field.1 ++ text) = quote field.1 ++ text := fun text =>
    skipGap_cons (by decide) _
  have colon : isGap ':' = false := by decide
  have blank : ∀ c ∈ [' '], isGap c = true := List.forall_mem_singleton.mpr rfl
  have behind := readValue_append depth blank (pretty level field.2 ++ rest)
  rw [value rest noDigit, List.singleton_append] at behind
  rw [fieldLine, List.append_assoc, List.append_assoc, readField,
    skipGap_append fun c => isGap_of_mem_newline, quoted, readString_quote]
  simp [skipGap_cons colon, behind]

/-- What begins with a digit is a number. -/
theorem readValue_digit (depth : Nat) {c : Char} (digit : c.isDigit = true) (rest : List Char) :
    readValue (depth + 1) (c :: rest) =
      (readNumber (c :: rest)).map fun read => (number read.1, read.2) := by
  have other : ∀ special, special.isDigit = false → c ≠ special := by
    rintro special noDigit rfl
    exact Bool.false_ne_true (noDigit.symm.trans digit)
  have noGap : isGap c = false := by
    simp [isGap, other ' ' (by decide), other '\t' (by decide), other '\n' (by decide),
      other '\r' (by decide)]
  rw [readValue, skipGap_cons noGap]
  split
  · rename_i begins
    exact absurd (List.cons.inj begins).1 (other _ (by decide))
  · rename_i begins
    exact absurd (List.cons.inj begins).1 (other _ (by decide))
  · rename_i begins
    exact absurd (List.cons.inj begins).1 (other _ (by decide))
  · rfl

/-- A value is read from what is written for it. The induction is on the depth that the reader may
    go to: an item or field is shorter than the array or object it stands in. -/
theorem readsBack_pretty {depth : Nat} (level : Nat) (value : Json)
    (enough : (pretty level value).length < depth) :
    ReadsBack (readValue depth) (pretty level value) value := by
  induction depth generalizing level value with
  | zero => exact absurd enough (Nat.not_lt_zero _)
  | succ depth inductionHypothesis =>
    intro rest noDigit
    cases value with
    | number value =>
      obtain ⟨c, digits, isNumber⟩ :=
        List.exists_cons_of_ne_nil (Nat.toDigits_ne_nil (n := value) (b := 10))
      have digit : c.isDigit = true :=
        Nat.isDigit_of_mem_toDigits (by decide) (Nat.le_refl 10) (isNumber ▸ List.mem_cons_self)
      have back := readNumber_toDigits value rest noDigit
      rw [isNumber, List.cons_append] at back
      rw [pretty, isNumber, List.cons_append, readValue_digit depth digit, back]
      rfl
    | string text =>
      have back := readString_quote text rest
      rw [quote, List.cons_append] at back
      have opener : isGap '\x22' = false := by decide
      rw [pretty, quote, List.cons_append, readValue, skipGap_cons opener]
      simp only [back]
      rfl
    | array items =>
      have each : ∀ item ∈ items, ReadsBack (readValue depth) (itemLine (level + 1) item) item := by
        intro item member
        have shorter : (itemLine (level + 1) item).length < _ := length_lt_closed ']' level member
        rw [pretty_array, List.length_cons] at enough
        rw [itemLine, List.length_append] at shorter
        exact readsBack_itemLine (inductionHypothesis (level + 1) item (by omega))
      have opener : isGap '[' = false := by decide
      have items := readList_closed level rest (by decide) (by decide)
        (readValue_closer depth (.inl rfl)) each
      rw [pretty_array, List.cons_append, readValue, skipGap_cons opener]
      simp only [items]
      rfl
    | object fields =>
      have each : ∀ field ∈ fields, ReadsBack (readField (readValue depth))
          (fieldLine (level + 1) field) field := by
        intro field member
        have shorter : (fieldLine (level + 1) field).length < _ := length_lt_closed '}' level member
        rw [pretty_object, List.length_cons] at enough
        rw [fieldLine, List.length_append, List.length_append, List.length_cons,
          List.length_cons] at shorter
        exact readsBack_fieldLine (inductionHypothesis (level + 1) field.2 (by omega))
      have opener : isGap '{' = false := by decide
      have fields := readList_closed level rest (by decide) (by decide)
        (readField_closer (readValue depth)) each
      rw [pretty_object, List.cons_append, readValue, skipGap_cons opener]
      simp only [fields]
      rfl

/-- Whatever a value is, reading gives it back. -/
theorem readsBack_read (value : Json) : ReadsBack read (pretty 0 value) value := by
  intro rest noDigit
  apply readsBack_pretty 0 value _ rest noDigit
  rw [List.length_append]
  omega

/-! ## Records of findings -/

/-- The values of an object that has exactly the fields with the given names. -/
def values? (names : List String) : Json → Option (List Json)
  | object fields =>
    if fields.map Prod.fst = names.map String.toList then some (fields.map Prod.snd) else none
  | _ => none

/-- The text of a string. -/
def text? : Json → Option String
  | string value => some (String.ofList value)
  | _ => none

/-- The value of a number. -/
def number? : Json → Option Nat
  | number value => some value
  | _ => none

/-- The position that an object with exactly a line and a column stands for. -/
def position? (value : Json) : Option Position :=
  match value.values? ["line", "column"] with
  | some [line, column] => do
    return { line := ← line.number?, column := ← column.number? }
  | _ => none

end Json

/-- What an object of a report says about a finding. -/
structure Record where
  /-- The name of the stylesheet. -/
  file : String
  /-- Where the prelude starts. -/
  first : Position
  /-- Where the prelude ends. -/
  last : Position
  /-- What is wrong with it. -/
  message : String
  /-- The line of the finding. -/
  rendered : String
  deriving DecidableEq, Repr

namespace Record

/-- The record that an object with exactly its fields stands for. -/
def ofJson? (value : Json) : Option Record :=
  match value.values? ["file", "start", "end", "message", "rendered"] with
  | some [file, first, last, message, rendered] => do
    return {
      file := ← file.text?, first := ← first.position?, last := ← last.position?,
      message := ← message.text?, rendered := ← rendered.text? }
  | _ => none

/-- The line that the fields of a record other than its line make. -/
def line (record : Record) : String :=
  record.file ++ ":" ++ record.first.render ++ "-" ++ record.last.render ++ " - " ++ record.message

/-- A record says what a finding is: its span and its text, and its line as text reports have it,
    which the rest of the record makes as well. -/
structure Tells (record : Record) (finding : Finding) : Prop where
  /-- The stylesheet is that of the span. -/
  file : record.file = finding.span.file
  /-- The start is that of the span. -/
  first : record.first = finding.span.first
  /-- The end is that of the span. -/
  last : record.last = finding.span.last
  /-- The message is the text of the problem. -/
  message : record.message = finding.problem.text
  /-- The line is that of the text report. -/
  rendered : record.rendered = textLine false finding
  /-- The line is what the other fields make. -/
  rebuilt : record.rendered = record.line

/-- The record of a finding. -/
def ofFinding (finding : Finding) : Record where
  file := finding.span.file
  first := finding.span.first
  last := finding.span.last
  message := finding.problem.text
  rendered := finding.line

/-- The record of a finding says what the finding is. -/
theorem ofFinding_tells (finding : Finding) : (ofFinding finding).Tells finding where
  file := rfl
  first := rfl
  last := rfl
  message := rfl
  rendered := rfl
  rebuilt := rfl

/-- A position is read from its object. -/
theorem position?_toJson (position : Position) :
    (Finding.toJson.position position).position? = some position := by
  rfl

/-- The object of a finding stands for its record. -/
theorem ofJson?_toJson (finding : Finding) :
    ofJson? finding.toJson = some (ofFinding finding) := by
  have values : finding.toJson.values? ["file", "start", "end", "message", "rendered"] = some
      [.string finding.span.file.toList, Finding.toJson.position finding.span.first,
        Finding.toJson.position finding.span.last, .string finding.problem.text.toList,
        .string finding.line.toList] := rfl
  simp [ofJson?, values, position?_toJson, Json.text?, ofFinding]

end Record

/-- A JSON report is one array, with a line end behind it and nothing else. The array has an object
    for each finding, in order, and each object stands for a record of the finding. -/
theorem toJson_decoded (report : Report) : ∃ objects,
    Json.read report.toJson.toList = some (.array objects, ['\n']) ∧
      objects.length = report.findings.length ∧
      List.Forall₂ (fun object finding => ∃ record,
        Record.ofJson? object = some record ∧ record.Tells finding) objects report.findings := by
  refine ⟨report.findings.map Finding.toJson, ?_, List.length_map _, ?_⟩
  · rw [toJson, Json.document, String.toList_ofList]
    apply Json.readsBack_read
    rintro c ⟨⟩
    decide
  · rw [List.forall₂_map_left_iff, List.forall₂_same]
    intro finding _
    exact ⟨_, Record.ofJson?_toJson finding, Record.ofFinding_tells finding⟩

-- An array in another layout than that of reports, with escapes that reports do not use.
example : (Json.read "[1,\t\"\\ud83d\\ude00\\/\"\r\n, \x7b \x7d ] ".toList).map
    (fun read => (read.1.pretty 0, read.2)) =
      some ("[\n  1,\n  \"😀/\",\n  \x7b\x7d\n]".toList, [' ']) := by
  decide +kernel

-- No JSON: a zero in front, a comma too many, a surrogate alone, a control in a string.
example : (Json.read "[01]".toList).isNone ∧ (Json.read "[1,]".toList).isNone ∧
    (Json.read "\"\\ude00\"".toList).isNone ∧ (Json.read "\"\n\"".toList).isNone := by
  decide

end SelectorLint.Report
