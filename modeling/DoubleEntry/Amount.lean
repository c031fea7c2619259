set_option autoImplicit false

/-! # Amounts

Amounts of money count the smallest unit of a currency; credits are positive, debits negative. They
are integers that have to fit in 64 bits. Sums are formed exactly and then checked against the
range, so nothing wraps: `Amount.add?` answers `none` for a sum out of range, and `Amount.negate?`
for the one amount whose opposite is out of range.
-/

namespace DoubleEntry

namespace Amount

/-- The least amount, `-2 ^ 63`. -/
def least : Int := -9223372036854775808

/-- The greatest amount, `2 ^ 63 - 1`. -/
def greatest : Int := 9223372036854775807

/-- An amount is representable when it fits in 64 bits. -/
def InRange (x : Int) : Prop := least ≤ x ∧ x ≤ greatest

instance (x : Int) : Decidable (InRange x) := inferInstanceAs (Decidable (_ ∧ _))

/-- The sum of two amounts, unless it is out of range. -/
def add? (x y : Int) : Option Int := if InRange (x + y) then some (x + y) else none

/-- The opposite of an amount. The least amount has none. -/
def negate? (x : Int) : Option Int := if x = least then none else some (-x)

theorem add?_eq_some_iff {x y z : Int} : add? x y = some z ↔ z = x + y ∧ InRange (x + y) := by
  unfold add?
  split <;> simp_all [eq_comm]

theorem add?_eq_none_iff {x y : Int} : add? x y = none ↔ ¬ InRange (x + y) := by
  simp [add?]

theorem negate?_eq_none_iff {x : Int} : negate? x = none ↔ x = least := by
  simp [negate?]

theorem negate?_inRange {x y : Int} (hx : InRange x) (h : negate? x = some y) :
    y = -x ∧ InRange y := by
  unfold negate? at h
  split at h
  · cases h
  · rename_i hne
    obtain rfl : -x = y := Option.some.inj h
    refine ⟨rfl, ?_⟩
    simp only [InRange, least, greatest] at hx hne ⊢
    omega

end Amount

end DoubleEntry
