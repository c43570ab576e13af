/-!
# Decimal text of binary floating-point numbers

A number read from decimal digits is rounded to the nearest double-precision value,
a tie going to the even mantissa. Written out, it takes the fewest digits that read
back as the same value and, of those, the ones nearest to it, a tie going away from
zero. All of it is exact arithmetic on whole numbers.
-/

namespace SelectorLint.Decimal

/-- A double-precision value. A finite one is its mantissa times a power of two. -/
inductive Binary64 where
  /-- A finite value; the exponent is that of the mantissa's last bit. -/
  | finite (negative : Bool) (mantissa : Nat) (exponent : Int)
  /-- A value too large to be finite. -/
  | infinite (negative : Bool)
  /-- No number. -/
  | undefined
  deriving DecidableEq, Repr

namespace Binary64

/-- The least exponent of a mantissa's last bit. -/
def leastExponent : Int := -1074

/-- The greatest exponent of a mantissa's last bit. -/
def greatestExponent : Int := 971

/-- The least mantissa of a value whose exponent is not the least. -/
def leastMantissa : Nat := 1 <<< 52

/-- A quotient rounded to the nearest whole number, a tie going to the even one. -/
def roundHalfEven (numerator denominator : Nat) : Nat :=
  let quotient := numerator / denominator
  let remainder := numerator % denominator
  if 2 * remainder < denominator then quotient
  else if denominator < 2 * remainder then quotient + 1
  else if quotient % 2 = 0 then quotient
  else quotient + 1

/-- A power as a fraction: numerator and denominator. -/
def power (base : Nat) (exponent : Int) : Nat × Nat :=
  if 0 ≤ exponent then (Nat.pow base exponent.toNat, 1)
  else (1, Nat.pow base (-exponent).toNat)

/-- The value nearest to a positive fraction. -/
def ofFraction (negative : Bool) (numerator denominator : Nat) : Binary64 :=
  let guess : Int := (Nat.log2 numerator : Int) - Nat.log2 denominator - 52
  let scale := power 2 guess
  let exponent :=
    if numerator * scale.2 < leastMantissa * (denominator * scale.1) then guess - 1 else guess
  let exponent := max exponent leastExponent
  let scale := power 2 exponent
  let mantissa := roundHalfEven (numerator * scale.2) (denominator * scale.1)
  let carried := mantissa = 2 * leastMantissa
  let exponent := if carried then exponent + 1 else exponent
  if greatestExponent < exponent then infinite negative
  else finite negative (if carried then leastMantissa else mantissa) exponent

/-- The value nearest to whole digits times a power of ten. Numbers far outside the
    range are decided by their length alone, so that no large power is formed. -/
def ofDecimal (negative : Bool) (digits : Nat) (exponent : Int) : Binary64 :=
  let length : Int := (Nat.toDigits 10 digits).length + exponent
  if digits = 0 ∨ length < -400 then finite negative 0 leastExponent
  else if 400 < length then infinite negative
  else
    let scale := power 10 exponent
    ofFraction negative (digits * scale.1) scale.2

/-- Digits times a power of ten that read back as a positive value: on the grid of a
    power of ten, the nearer of the value's two neighbours that do, and the one above
    if both are as near. The three bounds
    are the value and the ends of the interval that rounds to it, as numerators over
    one denominator. -/
def onGrid? (value low high denominator : Nat) (closed : Bool) (grid : Int) : Option Nat :=
  let step := power 10 grid
  let below := value * step.2 / (denominator * step.1)
  let height (digits : Nat) : Nat := digits * (denominator * step.1)
  let inside (digits : Nat) : Bool :=
    if closed then low * step.2 ≤ height digits && height digits ≤ high * step.2
    else low * step.2 < height digits && height digits < high * step.2
  let nearerBelow := 2 * (value * step.2) < height below + height (below + 1)
  if inside below && (nearerBelow || !inside (below + 1)) then some below
  else if inside (below + 1) then some (below + 1)
  else none

/-- The fewest digits of a positive value, and the power of ten of the last one. -/
def shortest (mantissa : Nat) (exponent : Int) : Nat × Int :=
  let scale := power 2 (exponent - 2)
  let narrow := mantissa = leastMantissa ∧ leastExponent < exponent
  let value := 4 * mantissa * scale.1
  let low := (4 * mantissa - if narrow then 1 else 2) * scale.1
  let high := (4 * mantissa + 2) * scale.1
  let digitsBefore : Int :=
    if scale.2 ≤ value then (Nat.toDigits 10 (value / scale.2)).length
    else 1 - (Nat.toDigits 10 (scale.2 / value)).length
  let hits := (List.range 17).filterMap fun count =>
    let grid := digitsBefore - (count + 1 : Nat)
    (onGrid? value low high scale.2 (mantissa % 2 = 0) grid).map fun digits => (digits, grid)
  match hits with
  | [] => (0, 0)
  | (digits, grid) :: _ => if digits % 10 = 0 then (digits / 10, grid + 1) else (digits, grid)

/-- Digits times a power of ten without an exponent, with at least one digit on
    either side of the point. -/
def positional (digits : Nat) (exponent : Int) : List Char :=
  let written := Nat.toDigits 10 digits
  if 0 ≤ exponent then written ++ List.replicate exponent.toNat '0' ++ ['.', '0']
  else
    let places := (-exponent).toNat
    if places < written.length then
      written.take (written.length - places) ++ '.' :: written.drop (written.length - places)
    else '0' :: '.' :: (List.replicate (places - written.length) '0' ++ written)

/-- The text of a value. -/
def render : Binary64 → List Char
  | undefined => "NaN".toList
  | infinite negative => (if negative then "-inf" else "inf").toList
  | finite negative mantissa exponent =>
    let written :=
      if mantissa = 0 then ['0', '.', '0']
      else
        let digits := shortest mantissa exponent
        positional digits.1 digits.2
    if negative then '-' :: written else written

end Binary64

end SelectorLint.Decimal
