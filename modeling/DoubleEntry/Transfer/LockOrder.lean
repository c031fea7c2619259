import DoubleEntry.Amount
import DoubleEntry.Records
set_option autoImplicit false

/-! # The order of balance adjustments

A transfer adjusts two balances, and adjusting a balance locks the account. All transfers adjust the
account with the lower number first, so that two transfers never wait for each other. A transfer
from an account to itself adjusts it twice, the credit first.
-/

namespace DoubleEntry

/-- The two accounts of a transfer. -/
inductive Side where
  | source
  | target
  deriving DecidableEq, Repr

/-- The change that a transfer makes to one of its accounts. -/
structure Adjustment where
  side : Side
  account : Int
  delta : Int
  deriving DecidableEq, Repr

namespace NewTransfer

/-- What is taken from the source. -/
def debit (t : NewTransfer) : Adjustment := ⟨.source, t.source, -t.amount⟩

/-- What is given to the target. -/
def credit (t : NewTransfer) : Adjustment := ⟨.target, t.target, t.amount⟩

/-- The adjustments of a transfer in the order in which they are made. -/
def adjustments (t : NewTransfer) : Adjustment × Adjustment :=
  if t.source < t.target then (t.debit, t.credit) else (t.credit, t.debit)

/-- The adjustments of a transfer, unless its amount cannot be taken from an account. -/
def adjustments? (t : NewTransfer) : Option (Adjustment × Adjustment) :=
  (Amount.negate? t.amount).map fun _ => t.adjustments

theorem adjustments_ordered (t : NewTransfer) :
    t.adjustments.1.account ≤ t.adjustments.2.account := by
  unfold adjustments
  split
  · exact Int.le_of_lt (by assumption)
  · exact Int.not_lt.1 (by assumption)

end NewTransfer

end DoubleEntry
