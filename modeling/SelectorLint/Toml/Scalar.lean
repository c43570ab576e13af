import SelectorLint.Toml.Item

/-!
# Strings, numbers, dates and times

The single tokens that a value can be, apart from the truth values.
-/

namespace SelectorLint.Toml

open Decimal

/-! ## Strings -/

/-- A character that stands for itself in a string with escapes. -/
def isBasicChar (c : Char) : Bool := isCommentChar c && c != '\x22' && c != '\\'

/-- A character of a string without escapes. -/
def isLiteralChar (c : Char) : Bool := isCommentChar c && c != '\x27'

/-- The value of a hexadecimal digit. -/
def hexDigit? (c : Char) : Option Nat :=
  if '0' ≤ c ∧ c ≤ '9' then some (c.toNat - '0'.toNat)
  else if 'a' ≤ c ∧ c ≤ 'f' then some (c.toNat - 'a'.toNat + 10)
  else if 'A' ≤ c ∧ c ≤ 'F' then some (c.toNat - 'A'.toNat + 10)
  else none

/-- The number that digits stand for in a base. -/
def ofDigits (base : Nat) (digits : List Char) : Nat :=
  digits.foldl (fun value c => value * base + (hexDigit? c).getD 0) 0

/-- Reads exactly `count` characters of a class. -/
def exactly (count : Nat) (accept : Char → Bool) : Reader (List Char) := do
  let taken ← Reader.manyUpTo (Reader.satisfy accept) count
  if taken.length = count then pure taken else failure

/-- Reads a character by a fixed number of hexadecimal digits. -/
def codePoint (count : Nat) : Reader Char := do
  let value := ofDigits 16 (← exactly count fun c => (hexDigit? c).isSome)
  if value.isValidChar then pure (Char.ofNat value) else failure

/-- Reads an escaped character after its backslash. -/
def escapedChar : Reader Char := do
  match ← Reader.satisfy fun _ => true with
  | 'b' => pure '\x08'
  | 'f' => pure '\x0c'
  | 'n' => pure '\n'
  | 'r' => pure '\r'
  | 't' => pure '\t'
  | '\\' => pure '\\'
  | '\x22' => pure '\x22'
  | 'u' => codePoint 4
  | 'U' => codePoint 8
  | _ => failure

/-- Reads an escape: a backslash and what it stands for. -/
def escape : Reader Char := do
  Reader.char '\\'
  escapedChar

/-- Reads a string of one line with escapes. -/
def basicString : Reader (List Char) := do
  Reader.char '\x22'
  let chars ← Reader.many (Reader.satisfy isBasicChar <|> escape)
  Reader.char '\x22'
  pure chars

/-- Reads a string of one line without escapes. -/
def literalString : Reader (List Char) := do
  Reader.char '\x27'
  let chars ← Reader.takeWhile isLiteralChar
  Reader.char '\x27'
  pure chars

/-- Reads one or two quotes that do not end a string of several lines. -/
def innerQuotes (quote : Char) : Reader (List Char) := do
  let quotes ← Reader.takeWhile1 (· == quote)
  if quotes.length < 3 then pure quotes else failure

/-- Reads the end of a string of several lines: three quotes, and up to two in front
    of them that belong to the string. -/
def closingQuotes (quote : Char) : Reader (List Char) := do
  let quotes ← Reader.manyUpTo (Reader.satisfy (· == quote)) 5
  if 3 ≤ quotes.length then pure (quotes.drop 3) else failure

/-- Passes over a backslash at the end of a line, with the line ends and blanks that
    follow it. -/
def continuation : Reader Unit := do
  Reader.char '\\'
  white
  newline
  let _ ← Reader.many ((do let _ ← Reader.satisfy isWhite) <|> newline)

/-- Reads a string of several lines. A line end right behind the opening quotes does
    not belong to it, and every other one counts as a line feed. -/
def multilineString (quote : Char) (piece : Reader (List Char)) : Reader (List Char) := do
  Reader.literal [quote, quote, quote]
  let _ ← Reader.optional newline
  let pieces ← Reader.many <|
    piece <|> (do newline; pure ['\n']) <|> innerQuotes quote
  return pieces.flatten ++ (← closingQuotes quote)

/-- A stretch of a string of several lines with escapes. -/
def basicPiece : Reader (List Char) :=
  Reader.takeWhile1 isBasicChar <|> (do continuation; pure []) <|> (do return [← escape])

/-- Reads a string of any form. -/
def string : Reader (List Char) :=
  multilineString '\x22' basicPiece
    <|> basicString
    <|> multilineString '\x27' (Reader.takeWhile1 isLiteralChar)
    <|> literalString

/-! ## Numbers -/

/-- A digit of a base. -/
def isDigitOf (base : Nat) (c : Char) : Bool := (hexDigit? c).any (· < base)

/-- Reads digits of a base. An underscore may stand between two of them. -/
def digits (base : Nat) : Reader (List Char) := do
  let first ← Reader.satisfy (isDigitOf base)
  let rest ← Reader.many <| Reader.satisfy (isDigitOf base) <|> (do
    Reader.char '_'
    Reader.satisfy (isDigitOf base))
  pure (first :: rest)

/-- Reads a sign; the answer is whether it is a minus. -/
def sign : Reader Bool :=
  (do Reader.char '-'; pure true) <|> (do Reader.char '+'; pure false) <|> pure false

/-- Reads decimal digits without a leading zero, unless zero is all there is. -/
def decimalDigits : Reader (List Char) :=
  (do Reader.char '0'; pure ['0']) <|> digits 10

/-- Reads a whole number of a base behind its mark. -/
def basedInteger (mark : List Char) (base : Nat) : Reader Int := do
  Reader.literal mark
  return ofDigits base (← digits base)

/-- The number of whole numbers below zero that fit into 64 bits with their sign. -/
def integerBound : Int := 9223372036854775808

/-- Reads a whole number that fits into 64 bits with its sign. -/
def integer : Reader Int := do
  let value ← basedInteger ['0', 'x'] 16 <|> basedInteger ['0', 'o'] 8
    <|> basedInteger ['0', 'b'] 2 <|> (do
      let negative ← sign
      let value : Int := ofDigits 10 (← decimalDigits)
      return if negative then -value else value)
  if -integerBound ≤ value ∧ value < integerBound then pure value else failure

/-- Reads the exponent of a floating-point number. -/
def exponent : Reader Int := do
  Reader.char 'e' <|> Reader.char 'E'
  let negative ← sign
  let value : Int := ofDigits 10 (← digits 10)
  return if negative then -value else value

/-- Reads the digits behind a point. -/
def fraction : Reader (List Char) := do
  Reader.char '.'
  digits 10

/-- Reads a floating-point number with a fraction, an exponent, or both. One that is
    too large is refused unless it is negative. -/
def writtenFloat : Reader Binary64 := do
  let negative ← sign
  let whole ← decimalDigits
  let places ← Reader.optional fraction
  let power ← Reader.optional exponent
  if places.isNone ∧ power.isNone then failure
  let places := places.getD []
  let value := Binary64.ofDecimal negative (ofDigits 10 (whole ++ places))
    (power.getD 0 - places.length)
  if value = .infinite false then failure else pure value

/-- Reads a floating-point number. -/
def float : Reader Binary64 :=
  writtenFloat <|> (do
    let negative ← sign
    (do Reader.literal ['i', 'n', 'f']; pure (.infinite negative))
      <|> (do Reader.literal ['n', 'a', 'n']; pure .undefined))

/-! ## Dates and times -/

/-- Reads a number of exactly `count` digits that is in a range. -/
def numberWithin (count low high : Nat) : Reader Nat := do
  let value := ofDigits 10 (← exactly count (isDigitOf 10))
  if low ≤ value ∧ value ≤ high then pure value else failure

/-- The number of days of a month. -/
def daysIn (year month : Nat) : Nat :=
  if month = 2 then
    if year % 4 = 0 ∧ (year % 100 ≠ 0 ∨ year % 400 = 0) then 29 else 28
  else if month ∈ [4, 6, 9, 11] then 30
  else 31

/-- Reads a date. -/
def date : Reader Unit := do
  let year ← numberWithin 4 0 9999
  Reader.char '-'
  let month ← numberWithin 2 1 12
  Reader.char '-'
  let _ ← numberWithin 2 1 (daysIn year month)

/-- Reads a time of day, which may be a leap second. -/
def time : Reader Unit := do
  let _ ← numberWithin 2 0 23
  Reader.char ':'
  let _ ← numberWithin 2 0 59
  Reader.char ':'
  let _ ← numberWithin 2 0 60
  let _ ← Reader.optional do
    Reader.char '.'
    let _ ← Reader.takeWhile1 (isDigitOf 10)

/-- Reads the distance of a time from universal time. -/
def zone : Reader Unit :=
  Reader.char 'Z' <|> Reader.char 'z' <|> (do
    Reader.char '+' <|> Reader.char '-'
    let _ ← numberWithin 2 0 23
    Reader.char ':'
    let _ ← numberWithin 2 0 59)

/-- Reads a date, a time, or both. -/
def moment : Reader Unit :=
  (do
    date
    let _ ← Reader.optional do
      Reader.char 'T' <|> Reader.char 't' <|> Reader.char ' '
      time
      Reader.optional zone) <|> time

end SelectorLint.Toml
