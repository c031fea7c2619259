import DoubleEntry.Json
set_option autoImplicit false

/-! # Numbers in JSON

A number without fraction and exponent that fits in 64 bits is whole. Every other number is the
floating point number nearest to its first digits (as many as fit in 64 bits) times a power of ten;
it must be finite. A negative zero is a floating point number.
-/

namespace DoubleEntry.Json

open DoubleEntry.Text

/-- The greatest number of 64 bits without a sign. -/
def greatestWord : Nat := 18446744073709551615

/-- The leading digits that fit in 64 bits after `n`, the number with them, and the digits left. -/
def takeSignificand (n : Nat) : List Char → Nat × List Char
  | [] => (n, [])
  | c :: cs =>
      if n * 10 + digitValue c ≤ greatestWord then takeSignificand (n * 10 + digitValue c) cs
      else (n, c :: cs)

/-- Divides by `10 ^ 308` until the exponent is one that can be divided by at once. -/
def scaleDown : Nat → Float → Nat → Float
  | 0, x, _ => x
  | fuel + 1, x, e =>
      if e ≤ 308 then x / Float.ofScientific 1 false e
      else scaleDown fuel (x / Float.ofScientific 1 false 308) (e - 308)

/-- The floating point number `n * 10 ^ e`, if it is finite. -/
def scale? (n : Nat) (e : Int) : Option Float :=
  let x := n.toUInt64.toFloat
  if 0 ≤ e then
    if n = 0 then some x
    else if 308 < e then none
    else
      let y := x * Float.ofScientific 1 false e.toNat
      if y.isInf then none else some y
  else if n = 0 then some x
  else some (scaleDown (min (e.natAbs / 308 + 1) 4) x e.natAbs)

/-- A number from its parts: whether it is negative, the digits before the point, the digits after
it, and the exponent if there is one. -/
def ofParts? (negative : Bool) (whole : List Char) (fraction : Option (List Char))
    (exponent : Option Int) : Option Json :=
  let (n, left) := takeSignificand 0 whole
  let withSign (x : Float) : Json := .float (if negative then -x else x)
  match fraction, exponent with
  | none, none =>
      if !left.isEmpty then (scale? n left.length).map withSign
      else if negative then
        if n = 0 ∨ 9223372036854775808 < n then some (withSign n.toUInt64.toFloat)
        else some (.int (-(n : Int)))
      else some (.int n)
  | _, _ =>
      let fraction := fraction.getD []
      let (n, unread) := if left.isEmpty then takeSignificand n fraction else (n, fraction)
      let e : Int := left.length - ((fraction.length : Int) - unread.length) + exponent.getD 0
      (scale? n e).map withSign

end DoubleEntry.Json
