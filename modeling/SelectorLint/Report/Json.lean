/-!
# JSON as reports write it

Reports use whole numbers, strings, arrays and objects. They are written over
several lines, two blanks further in for each level, with an empty array or object
on one line. In a string only the quote, the backslash and the first 32 characters
are escaped; every other character stands for itself.
-/

namespace SelectorLint.Report

/-- A JSON value of the kinds that reports use. -/
inductive Json where
  /-- A whole number. -/
  | number (value : Nat)
  /-- A string. -/
  | string (value : List Char)
  /-- Values in order. -/
  | array (items : List Json)
  /-- Named values in order. -/
  | object (fields : List (List Char × Json))

namespace Json

/-- How one character of a string is written. -/
def escape (c : Char) : List Char :=
  if c = '\x22' ∨ c = '\\' then ['\\', c]
  else if c = '\x08' then ['\\', 'b']
  else if c = '\t' then ['\\', 't']
  else if c = '\n' then ['\\', 'n']
  else if c = '\x0c' then ['\\', 'f']
  else if c = '\r' then ['\\', 'r']
  else if c.toNat < 0x20 then
    ['\\', 'u', '0', '0', Nat.digitChar (c.toNat / 16), Nat.digitChar (c.toNat % 16)]
  else [c]

/-- A string between its quotes. -/
def quote (text : List Char) : List Char := '\x22' :: (text.flatMap escape ++ ['\x22'])

/-- A line end, then the blanks of a level. -/
def newline (level : Nat) : List Char := '\n' :: List.replicate (2 * level) ' '

mutual

/-- A value at a level of indentation. -/
def pretty (level : Nat) : Json → List Char
  | number value => Nat.toDigits 10 value
  | string value => quote value
  | array [] => ['[', ']']
  | array (first :: rest) =>
    '[' :: (newline (level + 1) ++ pretty (level + 1) first ++ prettyItems (level + 1) rest
      ++ newline level ++ [']'])
  | object [] => ['{', '}']
  | object ((name, first) :: rest) =>
    '{' :: (newline (level + 1) ++ quote name ++ [':', ' '] ++ pretty (level + 1) first
      ++ prettyFields (level + 1) rest ++ newline level ++ ['}'])

/-- The items of an array after the first, each behind a comma on a line of its own. -/
def prettyItems (level : Nat) : List Json → List Char
  | [] => []
  | item :: rest =>
    ',' :: (newline level ++ pretty level item ++ prettyItems level rest)

/-- The fields of an object after the first, each behind a comma on a line of its own. -/
def prettyFields (level : Nat) : List (List Char × Json) → List Char
  | [] => []
  | (name, value) :: rest =>
    ',' :: (newline level ++ quote name ++ [':', ' '] ++ pretty level value
      ++ prettyFields level rest)

end

/-- A value as a document of its own, ended by a line end. -/
def document (value : Json) : String := String.ofList (value.pretty 0 ++ ['\n'])

end Json

end SelectorLint.Report
