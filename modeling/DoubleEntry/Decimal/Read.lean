import DoubleEntry.Text.Digits
set_option autoImplicit false

/-! # Reading floating point numbers

A number in decimal notation stands for the floating point number that is nearest to it. Digits may
be missing on one side of the point, an exponent may follow, and the words for infinity and for what
is no number are known in any case.
-/

namespace DoubleEntry.Decimal

open DoubleEntry.Text

/-- The floating point number nearest to `n * 10 ^ e`. Beyond the exponents of floating point
numbers there are only zero and infinity. -/
def toFloat (n : Nat) (e : Int) : Float :=
  let size := (toDigits n).length + e
  if n = 0 ∨ size < -400 then 0.0
  else if 400 < size then 1.0 / 0.0
  else Float.ofScientific n (e < 0) e.natAbs

/-- Splits a sign from the front of a number. -/
def splitSign : List Char → Bool × List Char
  | '-' :: cs => (true, cs)
  | '+' :: cs => (false, cs)
  | cs => (false, cs)

/-- The exponent that follows the digits of a number, `0` if nothing follows. -/
def exponent? : List Char → Option Int
  | [] => some 0
  | c :: cs =>
      if c = 'e' ∨ c = 'E' then
        let (negative, digits) := splitSign cs
        if digits.isEmpty ∨ ¬ digits.all isDigit then none
        else some (if negative then -(ofDigits digits : Int) else ofDigits digits)
      else none

/-- The digits after the point of a number, if there is a point, and what follows them. -/
def splitFraction : List Char → List Char × List Char
  | '.' :: cs => (cs.takeWhile isDigit, cs.dropWhile isDigit)
  | cs => ([], cs)

/-- The number that a text without a sign denotes. -/
def unsigned? (cs : List Char) : Option Float :=
  let word := String.ofList (cs.map Char.toLower)
  if word = "inf" ∨ word = "infinity" then some (1.0 / 0.0)
  else if word = "nan" then some (0.0 / 0.0)
  else
    let whole := cs.takeWhile isDigit
    let (fraction, after) := splitFraction (cs.dropWhile isDigit)
    if whole.isEmpty ∧ fraction.isEmpty then none
    else (exponent? after).map fun e => toFloat (ofDigits (whole ++ fraction)) (e - fraction.length)

/-- **Reads a floating point number.** -/
def read? (cs : List Char) : Option Float :=
  let (negative, digits) := splitSign cs
  (unsigned? digits).map fun x => if negative then -x else x

end DoubleEntry.Decimal
