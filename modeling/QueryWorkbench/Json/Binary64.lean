import QueryWorkbench.Text.Basic

/-! The double-precision value of a JSON number, as its IEEE 754 bits. All arithmetic is exact, and
the one rounding is to the nearest value, a half going to the even one. -/

namespace QueryWorkbench.Json

structure Decimal where
  negative : Bool
  coefficient : Nat
  exponent : Int
deriving Repr, DecidableEq

def digitsValue (digits : Text) : Nat :=
  digits.foldl (fun value digit => value * 10 + (digit.toNat - '0'.toNat)) 0

namespace Decimal

def exponentOf : Text → Int
  | [] => 0
  | _ :: '-' :: digits => - Int.ofNat (digitsValue digits)
  | _ :: '+' :: digits => Int.ofNat (digitsValue digits)
  | _ :: digits => Int.ofNat (digitsValue digits)

def ofUnsigned (negative : Bool) (numeral : Text) : Decimal :=
  let whole := numeral.takeWhile Char.isDigit
  match numeral.drop whole.length with
  | '.' :: rest =>
      let fraction := rest.takeWhile Char.isDigit
      { negative
        coefficient := digitsValue (whole ++ fraction)
        exponent := exponentOf (rest.drop fraction.length) - fraction.length }
  | rest => ⟨negative, digitsValue whole, exponentOf rest⟩

def ofNumeral : Text → Decimal
  | '-' :: numeral => ofUnsigned true numeral
  | numeral => ofUnsigned false numeral

end Decimal

def roundQuotient (numerator denominator : Nat) : Nat :=
  let quotient := numerator / denominator
  let twice := 2 * (numerator % denominator)
  if twice < denominator then quotient
  else if denominator < twice then quotient + 1
  else quotient + quotient % 2

namespace Binary64

def infinity : Nat := 0x7FF0000000000000

def signBit : Nat := 0x8000000000000000

/-- The exponent of the unit in the last place of the double nearest to a positive quotient. -/
def unitExponent (numerator denominator : Nat) : Int :=
  let guess : Int := (numerator.log2 : Int) - denominator.log2
  let reached := denominator <<< guess.toNat ≤ numerator <<< (-guess).toNat
  max (guess - if reached then 52 else 53) (-1074)

def ofQuotient (numerator denominator : Nat) : Nat :=
  let unit := unitExponent numerator denominator
  let significand := roundQuotient (numerator <<< (-unit).toNat) (denominator <<< unit.toNat)
  min ((unit + 1074).toNat <<< 52 + significand) infinity

/-- The bits of the nearest double. Numbers far beyond the range of doubles are not expanded. -/
def ofDecimal (decimal : Decimal) : Nat :=
  let magnitude : Int := (toString decimal.coefficient).length + decimal.exponent
  let bits :=
    if decimal.coefficient = 0 ∨ magnitude < -330 then 0
    else if 310 < magnitude then infinity
    else
      ofQuotient (decimal.coefficient * Nat.pow 10 decimal.exponent.toNat)
        (Nat.pow 10 (-decimal.exponent).toNat)
  if decimal.negative then signBit + bits else bits

def ofNumeral (numeral : Text) : Nat := ofDecimal (Decimal.ofNumeral numeral)

end Binary64

end QueryWorkbench.Json
