set_option autoImplicit false

/-! # Decimal digits

Natural numbers as lists of decimal digits: reading, writing, and writing with leading zeros.
`ofDigits_toDigits` says that a written number reads back.
-/

namespace DoubleEntry.Text

/-- Whether a character is one of the ten ASCII digits. -/
def isDigit (c : Char) : Bool := '0' ≤ c && c ≤ '9'

/-- The value of a digit. -/
def digitValue (c : Char) : Nat := c.toNat - 48

/-- The digit with a value below ten. -/
def digitChar (n : Nat) : Char := Char.ofNat (48 + n)

/-- The number that a list of digits denotes. -/
def ofDigits (cs : List Char) : Nat := cs.foldl (fun n c => n * 10 + digitValue c) 0

/-- The digits of a number without leading zeros, put in front of `acc`. -/
def digitsOnto (n : Nat) (acc : List Char) : List Char :=
  if n < 10 then digitChar n :: acc else digitsOnto (n / 10) (digitChar (n % 10) :: acc)

/-- The digits of a number without leading zeros. -/
def toDigits (n : Nat) : List Char := digitsOnto n []

/-- The last `w` digits of a number, with zeros in front if it has fewer. -/
def lastDigits : Nat → Nat → List Char
  | 0, _ => []
  | w + 1, n => lastDigits w (n / 10) ++ [digitChar (n % 10)]

/-- The digits of a number with zeros in front up to a width. -/
def padded (w n : Nat) : List Char :=
  List.replicate (w - (toDigits n).length) '0' ++ toDigits n

/-- The digits of an integer after its sign. -/
def intDigits (n : Int) : List Char :=
  if n < 0 then '-' :: toDigits n.natAbs else toDigits n.natAbs

theorem digitValue_digitChar {n : Nat} (h : n < 10) : digitValue (digitChar n) = n := by
  have : ∀ m : Fin 10, digitValue (digitChar m) = m := by decide
  exact this ⟨n, h⟩

theorem isDigit_digitChar {n : Nat} (h : n < 10) : isDigit (digitChar n) = true := by
  have : ∀ m : Fin 10, isDigit (digitChar m) = true := by decide
  exact this ⟨n, h⟩

theorem ofDigits_digitsOnto (n : Nat) (acc : List Char) :
    ofDigits (digitsOnto n acc) = acc.foldl (fun n c => n * 10 + digitValue c) n := by
  fun_induction digitsOnto n acc with
  | case1 n acc h =>
      rw [ofDigits, List.foldl_cons, digitValue_digitChar h, Nat.zero_mul, Nat.zero_add]
  | case2 n acc h ih =>
      have hn : n / 10 * 10 + n % 10 = n := by omega
      rw [ih, List.foldl_cons, digitValue_digitChar (Nat.mod_lt n (by decide)), hn]

/-- **A written number reads back.** -/
theorem ofDigits_toDigits (n : Nat) : ofDigits (toDigits n) = n := ofDigits_digitsOnto n []

theorem all_isDigit_digitsOnto (n : Nat) {acc : List Char} (h : acc.all isDigit = true) :
    (digitsOnto n acc).all isDigit = true := by
  fun_induction digitsOnto n acc with
  | case1 n acc hn => simp [isDigit_digitChar hn, h]
  | case2 n acc hn ih =>
      exact ih (by simp [isDigit_digitChar (Nat.mod_lt n (show 0 < 10 by decide)), h])

theorem all_isDigit_toDigits (n : Nat) : (toDigits n).all isDigit = true :=
  all_isDigit_digitsOnto n rfl

theorem length_lastDigits (w n : Nat) : (lastDigits w n).length = w := by
  induction w generalizing n with
  | zero => rfl
  | succ w ih => simp [lastDigits, ih]

theorem all_isDigit_lastDigits (w n : Nat) : (lastDigits w n).all isDigit = true := by
  induction w generalizing n with
  | zero => rfl
  | succ w ih => simp [lastDigits, ih, isDigit_digitChar (Nat.mod_lt n (show 0 < 10 by decide))]

theorem ofDigits_lastDigits (w n : Nat) : ofDigits (lastDigits w n) = n % Nat.pow 10 w := by
  induction w generalizing n with
  | zero => simp [lastDigits, ofDigits, Nat.mod_one]
  | succ w ih =>
      have hd := digitValue_digitChar (Nat.mod_lt n (show 0 < 10 by decide))
      have ih : List.foldl _ 0 (lastDigits w (n / 10)) = n / 10 % Nat.pow 10 w := ih (n / 10)
      rw [ofDigits, lastDigits, List.foldl_append, ih, List.foldl_cons, List.foldl_nil, hd,
        show Nat.pow 10 (w + 1) = 10 * Nat.pow 10 w from Nat.mul_comm _ _, Nat.mod_mul, Nat.mul_comm,
        Nat.add_comm]

end DoubleEntry.Text
