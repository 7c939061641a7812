/-!
# Decimal numerals

A `Decimal` is the quantity `coefficient * 10 ^ exponent`. A `Numeral` is the
written form of a number: a sign, the digits before and after the point, and
perhaps an exponent. `Decimal.positional` and `Decimal.scientific` are the two
ways to write a quantity down; `Numeral.quantity` reads it back.
-/

set_option autoImplicit false

namespace SqlSelect

/-- The quantity `coefficient * 10 ^ exponent`, never negative. -/
structure Decimal where
  coefficient : Nat
  exponent : Int
deriving DecidableEq

/-- A number as it is written. `fraction` is empty when there is no point. -/
structure Numeral where
  negative : Bool
  whole : List Char
  fraction : List Char := []
  exponent : Option Int := none
deriving DecidableEq

namespace Numeral

/-- The numeral of an integer: an optional minus and digits, no leading zero. -/
def ofInt (n : Int) : Numeral :=
  { negative := n < 0, whole := Nat.toDigits 10 n.natAbs }

/-- Written with digits only, apart from the sign. -/
def isWhole (n : Numeral) : Bool :=
  n.fraction.isEmpty && n.exponent.isNone

/-- The value of the digits before the point. -/
def wholeValue (n : Numeral) : Nat :=
  Nat.ofDigitChars 10 n.whole 0

/-- The quantity that the numeral denotes, without its sign. -/
def quantity (n : Numeral) : Decimal :=
  { coefficient := Nat.ofDigitChars 10 (n.whole ++ n.fraction) 0
    exponent := n.exponent.getD 0 - n.fraction.length }

/-- An exponent always shows its sign. -/
def exponentText (e : Int) : String :=
  "e" ++ (if e < 0 then "-" else "+") ++ String.ofList (Nat.toDigits 10 e.natAbs)

def text (n : Numeral) : String :=
  (if n.negative then "-" else "") ++ String.ofList n.whole ++
    (if n.fraction.isEmpty then "" else "." ++ String.ofList n.fraction) ++
    (n.exponent.map exponentText).getD ""

end Numeral

namespace Decimal

/-- The digits of the coefficient. -/
def digits (d : Decimal) : List Char :=
  Nat.toDigits 10 d.coefficient

/-- The power of ten of the leading digit. -/
def magnitude (d : Decimal) : Int :=
  d.exponent + d.digits.length - 1

/-- All places written out, with at least one digit on each side of the point. -/
def positional (negative : Bool) (d : Decimal) : Numeral :=
  if 0 ≤ d.exponent then
    { negative, whole := d.digits ++ List.replicate d.exponent.toNat '0', fraction := ['0'] }
  else
    let places := (-d.exponent).toNat
    if places < d.digits.length then
      { negative
        whole := d.digits.take (d.digits.length - places)
        fraction := d.digits.drop (d.digits.length - places) }
    else
      { negative
        whole := ['0']
        fraction := List.replicate (places - d.digits.length) '0' ++ d.digits }

/-- One digit before the point, the others after it, and the power of ten. -/
def scientific (negative : Bool) (d : Decimal) : Numeral :=
  { negative, whole := d.digits.take 1, fraction := d.digits.drop 1, exponent := some d.magnitude }

end Decimal

end SqlSelect
