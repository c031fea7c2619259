import DoubleEntry.Text.Digits
set_option autoImplicit false

/-! # The shortest decimal of a floating point number

A finite positive floating point number stands for all reals that round to it. Its shortest decimal
is the one with the fewest digits among those reals, and of these the nearest to the number itself.
The search goes from coarse to fine decimal grids in exact arithmetic: the first grid with a point
in the interval is the answer, because any point of a grid in the interval has one of the two
neighbours of the number on that grid beside it in the interval.
-/

namespace DoubleEntry

/-- The decimal number `digits * 10 ^ exponent`. -/
structure Decimal where
  digits : Nat
  exponent : Int
  deriving DecidableEq, Repr

/-- A finite positive floating point number `mantissa * 2 ^ exponent`. -/
structure BinaryFraction where
  mantissa : Nat
  exponent : Int
  /-- Whether the next smaller number is only half as far away as the next larger one. -/
  narrowBelow : Bool
  deriving DecidableEq, Repr

namespace BinaryFraction

/-- The absolute value of a finite floating point number, from its bits. -/
def ofBits (bits : UInt64) : BinaryFraction :=
  let fraction := (bits &&& 0xfffffffffffff).toNat
  let biased := ((bits >>> 52) &&& 0x7ff).toNat
  if biased = 0 then ⟨fraction, -1074, false⟩
  else ⟨fraction + Nat.pow 2 52, (biased : Int) - 1075, fraction = 0 && 1 < biased⟩

/-- Compares `n * 10 ^ tens` with `k * 2 ^ twos`. -/
def compareScaled (n : Nat) (tens : Int) (k : Nat) (twos : Int) : Ordering :=
  compare (n * Nat.pow 10 tens.toNat * Nat.pow 2 (-twos).toNat)
    (k * Nat.pow 2 twos.toNat * Nat.pow 10 (-tens).toNat)

/-- Whether `n * 10 ^ tens` rounds to the number. Quarters of the last place are counted, so that
the middle between two numbers is a whole count; a middle goes to the even mantissa. -/
def roundsFrom (x : BinaryFraction) (n : Nat) (tens : Int) : Bool :=
  let low := 4 * x.mantissa - (if x.narrowBelow then 1 else 2)
  let high := 4 * x.mantissa + 2
  let even := x.mantissa % 2 = 0
  let fromLow := compareScaled n tens low (x.exponent - 2)
  let toHigh := compareScaled n tens high (x.exponent - 2)
  (fromLow == .gt || (even && fromLow == .eq)) && (toHigh == .lt || (even && toHigh == .eq))

/-- The greatest multiple of `10 ^ tens` that is not above the number, in units of `10 ^ tens`. -/
def below (x : BinaryFraction) (tens : Int) : Nat :=
  (x.mantissa * Nat.pow 2 x.exponent.toNat * Nat.pow 10 (-tens).toNat) /
    (Nat.pow 2 (-x.exponent).toNat * Nat.pow 10 tens.toNat)

/-- The multiple of `10 ^ tens` that rounds to the number, the nearest one if there are two. -/
def onGrid? (x : BinaryFraction) (tens : Int) : Option Nat :=
  let n := x.below tens
  match x.roundsFrom n tens, x.roundsFrom (n + 1) tens with
  | true, true =>
      -- `2 * n + 1` halves of a unit lie in the middle of the two
      match compareScaled (2 * n + 1) tens (2 * x.mantissa) x.exponent with
      | .gt => some n
      | .lt => some (n + 1)
      | .eq => some (if n % 2 = 0 then n else n + 1)
  | true, false => some n
  | false, true => some (n + 1)
  | false, false => none

/-- The first grid with a number that rounds to `x`, from `10 ^ tens` on to finer ones. -/
def search (x : BinaryFraction) : Nat → Int → Decimal
  | 0, tens => ⟨x.below tens, tens⟩
  | fuel + 1, tens =>
      match x.onGrid? tens with
      | some n => ⟨n, tens⟩
      | none => search x fuel (tens - 1)

/-- The shortest decimal that rounds to the number. Eighteen significant digits always suffice, and
the search starts at most three digits above the first significant one. -/
def shortest (x : BinaryFraction) : Decimal :=
  let whole := x.below 0
  let start : Int :=
    if whole = 0 then
      2 - ((Text.toDigits (Nat.pow 2 (-x.exponent).toNat / x.mantissa)).length : Int)
    else (Text.toDigits whole).length
  x.search 24 start

end BinaryFraction

/-- How floating point numbers are shown: which powers of ten of the first digit are written without
an exponent. -/
structure FloatFormat where
  leastPositional : Int
  greatestPositional : Int
  deriving DecidableEq, Repr

namespace FloatFormat

/-- Writes a decimal without an exponent and with at least one digit on each side of the point. -/
def positional (digits : List Char) (exponent : Int) : List Char :=
  if 0 ≤ exponent then digits ++ List.replicate exponent.toNat '0' ++ ['.', '0']
  else
    let places := (-exponent).toNat
    if places < digits.length then
      digits.take (digits.length - places) ++ '.' :: digits.drop (digits.length - places)
    else '0' :: '.' :: List.replicate (places - digits.length) '0' ++ digits

/-- Writes a decimal with one digit before the point and an exponent of at least two digits. -/
def scientific (digits : List Char) (first : Int) : List Char :=
  let mantissa := match digits with
    | [] => []
    | [d] => [d]
    | d :: ds => d :: '.' :: ds
  mantissa ++ 'e' :: (if first < 0 then '-' else '+') :: Text.padded 2 first.natAbs

/-- The text of a finite floating point number. -/
def render (f : FloatFormat) (x : Float) : String :=
  let bits := x.toBits
  let sign := if bits >>> 63 = 1 then ['-'] else []
  if x == 0 then String.ofList (sign ++ ['0', '.', '0'])
  else
    let d := (BinaryFraction.ofBits bits).shortest
    let digits := Text.toDigits d.digits
    let first := d.exponent + digits.length - 1
    String.ofList <| sign ++
      if f.leastPositional ≤ first ∧ first ≤ f.greatestPositional then
        positional digits d.exponent
      else scientific digits first

end FloatFormat

end DoubleEntry
