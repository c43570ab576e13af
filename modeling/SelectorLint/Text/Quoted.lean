import SelectorLint.Text.Unprintable

/-!
# Quoted text

Log records and refusals show text between double quotes, on one line. A quote
or a backslash is written after a backslash; tab, line feed, carriage return
and NUL have short forms; any other character without a shape of its own is
written as its hexadecimal number. The single quote stays as it is.
-/

namespace SelectorLint.Text.Quoted

/-- A character by its number: lowercase hexadecimal, without leading zeros. -/
def numbered (c : Char) : List Char :=
  '\\' :: 'u' :: '{' :: (Nat.toDigits 16 c.toNat ++ ['}'])

/-- How one character is written between the quotes. -/
def escape (c : Char) : List Char :=
  if c = '\x00' then ['\\', '0']
  else if c = '\t' then ['\\', 't']
  else if c = '\n' then ['\\', 'n']
  else if c = '\r' then ['\\', 'r']
  else if c = '\x22' ∨ c = '\\' then ['\\', c]
  else if isUnprintable c then numbered c
  else [c]

/-- A text between double quotes, with its characters written by `escape`. -/
def encode (text : List Char) : String :=
  String.ofList ('\x22' :: (text.flatMap escape ++ ['\x22']))

end SelectorLint.Text.Quoted
