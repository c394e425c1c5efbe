import ZabbixPortal.Foundation.Text
import Mathlib.Algebra.Order.Field.Rat

/-! Numbers as JavaScript's `Number(text)` reads them: the finite double a numeric
text names, as the rational it is, and none for `NaN` and the infinities. -/

set_option autoImplicit false

namespace ZabbixPortal.Foundation

def roundHalfEven (numerator denominator : Nat) : Nat :=
  let whole := numerator / denominator
  let left := numerator % denominator
  if 2 * left < denominator then whole
  else if denominator < 2 * left then whole + 1
  else whole + whole % 2

/-- `numerator / denominator` over `2 ^ exponent`, as a fraction again. -/
def scaled (numerator denominator : Nat) (exponent : ℤ) : Nat × Nat :=
  if 0 ≤ exponent then (numerator, denominator * 2 ^ exponent.toNat)
  else (numerator * 2 ^ (-exponent).toNat, denominator)

/-- The double nearest to a fraction, ties to the even mantissa; none beyond the
largest one. -/
def toDouble (numerator denominator : Nat) : Option ℚ :=
  if numerator = 0 then some 0
  else
    let guess : ℤ := (numerator.log2 : ℤ) - denominator.log2 - 52
    let first := scaled numerator denominator guess
    let exponent := max (if first.1 < 2 ^ 52 * first.2 then guess - 1 else guess) (-1074)
    let fraction := scaled numerator denominator exponent
    let mantissa := roundHalfEven fraction.1 fraction.2
    let value : ℚ :=
      if 0 ≤ exponent then mantissa * 2 ^ exponent.toNat
      else (mantissa : ℚ) / 2 ^ (-exponent).toNat
    if value < 2 ^ 1024 then some value else none

def digitValue (c : Char) : Nat :=
  if c.isDigit then c.toNat - '0'.toNat else c.toLower.toNat - 'a'.toNat + 10

def isDigitIn (base : Nat) (c : Char) : Bool :=
  (c.isDigit || ('a' ≤ c.toLower && c.toLower ≤ 'f')) && digitValue c < base

def valueIn (base : Nat) (digits : List Char) : Nat :=
  digits.foldl (fun value digit => base * value + digitValue digit) 0

private def integerIn (base : Nat) (digits : List Char) : Option ℚ :=
  if digits.isEmpty || !digits.all (isDigitIn base) then none
  else toDouble (valueIn base digits) 1

/-- The power of ten an exponent part names; none for a text that is not one. -/
private def exponentPart : List Char → Option ℤ
  | [] => some 0
  | mark :: rest =>
      if mark ≠ 'e' ∧ mark ≠ 'E' then none
      else
        let digits := if rest.head? = some '-' ∨ rest.head? = some '+' then rest.tail else rest
        if digits.isEmpty || !digits.all Char.isDigit then none
        else some (if rest.head? = some '-' then -(valueIn 10 digits : ℤ) else valueIn 10 digits)

private def decimal (text : List Char) : Option ℚ :=
  let whole := text.takeWhile Char.isDigit
  let rest := text.dropWhile Char.isDigit
  let fraction := if rest.head? = some '.' then rest.tail.takeWhile Char.isDigit else []
  let rest := if rest.head? = some '.' then rest.tail.dropWhile Char.isDigit else rest
  if whole.isEmpty && fraction.isEmpty then none
  else
    (exponentPart rest).bind fun power =>
      let exponent := power - fraction.length
      let mantissa := valueIn 10 (whole ++ fraction)
      if 0 ≤ exponent then toDouble (mantissa * 10 ^ exponent.toNat) 1
      else toDouble mantissa (10 ^ (-exponent).toNat)

/-- `Number(text)`. White space around the literal does not count, and nothing but
white space is zero. -/
def toNumber (text : String) : Option ℚ :=
  match trim text.toList with
  | [] => some 0
  | '0' :: 'x' :: digits | '0' :: 'X' :: digits => integerIn 16 digits
  | '0' :: 'o' :: digits | '0' :: 'O' :: digits => integerIn 8 digits
  | '0' :: 'b' :: digits | '0' :: 'B' :: digits => integerIn 2 digits
  | '-' :: digits => (decimal digits).map fun value => -value
  | '+' :: digits => decimal digits
  | digits => decimal digits

example : toNumber " 0.1 " = some (3602879701896397 / 36028797018963968) := by decide +kernel
example : toNumber "1e400" = none ∧ toNumber "-0x1" = none := by decide +kernel

end ZabbixPortal.Foundation
