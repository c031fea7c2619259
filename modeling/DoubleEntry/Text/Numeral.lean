import DoubleEntry.Text.Digits
set_option autoImplicit false

/-! # Numerals

Natural numbers below a limit in decimal notation: one or more digits, after a plus sign or not,
with any number of leading zeros. There is room for nothing else, white space included.
-/

namespace DoubleEntry.Text

/-- The first number beyond those of sixteen binary digits. -/
def limit16 : Nat := 65536

/-- The first number beyond those of thirty-two binary digits. -/
def limit32 : Nat := 4294967296

/-- The first number beyond those of sixty-four binary digits. -/
def limit64 : Nat := 18446744073709551616

/-- Why a text is not a numeral for a number below a limit. -/
inductive NumeralFault where
  | empty
  | notADigit
  | tooLarge
  deriving DecidableEq, Repr

/-- What is told about a text that is not a numeral. -/
def NumeralFault.message : NumeralFault → String
  | .empty => "cannot parse integer from empty string"
  | .notADigit => "invalid digit found in string"
  | .tooLarge => "number too large to fit in target type"

/-- The text after a plus sign in front of it. -/
def afterPlus : List Char → List Char
  | '+' :: cs => cs
  | cs => cs

/-- Reads a natural number below a limit. -/
def numeral (limit : Nat) (cs : List Char) : Except NumeralFault Nat :=
  if cs.isEmpty then .error .empty
  else
    let digits := afterPlus cs
    if digits.isEmpty ∨ ¬ digits.all isDigit then .error .notADigit
    else if ofDigits digits < limit then .ok (ofDigits digits)
    else .error .tooLarge

theorem digitsOnto_ne_nil (n : Nat) (acc : List Char) : digitsOnto n acc ≠ [] := by
  fun_induction digitsOnto n acc with
  | case1 => exact List.cons_ne_nil _ _
  | case2 n acc h ih => exact ih

theorem afterPlus_of_isDigit {cs : List Char} (h : cs.all isDigit = true) : afterPlus cs = cs := by
  unfold afterPlus
  split
  · exact absurd h (by simp [isDigit])
  · rfl

/-- The digits of a number below the limit are a numeral for it. -/
theorem numeral_toDigits {limit n : Nat} (h : n < limit) : numeral limit (toDigits n) = .ok n := by
  have hne : toDigits n ≠ [] := digitsOnto_ne_nil n []
  have hall : ∀ c ∈ toDigits n, isDigit c = true := List.all_eq_true.1 (all_isDigit_toDigits n)
  simpa [numeral, afterPlus_of_isDigit (all_isDigit_toDigits n), hne, ofDigits_toDigits, h]
    using hall

end DoubleEntry.Text
