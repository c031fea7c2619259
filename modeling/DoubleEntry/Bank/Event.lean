import DoubleEntry.Bank.Desk
set_option autoImplicit false

/-! # What can happen at a desk

Commands are taken, pending calls are asked to go on, pending calls are cancelled, and time passes,
in any order. `Desk.Reachable` holds of the desks that this leads to from a bank without accounts.
Asking the pending calls until none of them ends is one such order (`Desk.Reachable.settle`).
-/

namespace DoubleEntry

/-- Something that happens at a desk. -/
inductive Event where
  | command (c : Command)
  | poll (number : Nat)
  | cancel (number : Nat)
  /-- A number is used up by something that does not concern the bank. -/
  | skip
  /-- Time passes. -/
  | tick (now : Timestamp)
  deriving DecidableEq, Repr

namespace Desk

/-- The desk after an event. -/
def after (d : Desk) : Event → Desk
  | .command c => (d.submit c).2
  | .poll number => (d.poll number).2
  | .cancel number => (d.cancel number).2
  | .skip => d.count
  | .tick now => { d with bank := { d.bank with clock := now } }

/-- The desk after some events, one after the other. -/
def afterAll (d : Desk) (es : List Event) : Desk := es.foldl after d

theorem afterAll_append (d : Desk) (es es' : List Event) :
    d.afterAll (es ++ es') = (d.afterAll es).afterAll es' := List.foldl_append

/-- The desks that events lead to from a bank without accounts. -/
inductive Reachable (nonNegative : Bool) : Desk → Prop where
  | opening : Reachable nonNegative (.opening nonNegative)
  | after {d : Desk} (e : Event) : Reachable nonNegative d → Reachable nonNegative (d.after e)

namespace Reachable

variable {nonNegative : Bool} {d : Desk}

theorem afterAll (h : Reachable nonNegative d) (es : List Event) :
    Reachable nonNegative (d.afterAll es) := by
  induction es generalizing d with
  | nil => exact h
  | cons e es ih => exact ih (h.after e)

theorem poll (h : Reachable nonNegative d) (number : Nat) :
    Reachable nonNegative (d.poll number).2 :=
  h.after (.poll number)

theorem pollEach (h : Reachable nonNegative d) (numbers : List Nat) :
    Reachable nonNegative (d.pollEach numbers).2 := by
  induction numbers generalizing d with
  | nil => exact h
  | cons n rest ih =>
      have next := h.poll n
      unfold Desk.pollEach
      split <;> rename_i heq <;> rw [heq] at next
      · exact ih next
      · exact ih next

theorem settleFor (h : Reachable nonNegative d) (fuel : Nat) :
    Reachable nonNegative (Desk.settleFor fuel d).2 := by
  induction fuel generalizing d with
  | zero => exact h
  | succ fuel ih =>
      have next := h.pollEach (d.pending.map Prod.fst)
      simp only [Desk.settleFor]
      split
      · exact next
      · exact ih next

/-- **Asking the pending calls until none of them ends leads to a reachable desk.** -/
theorem settle (h : Reachable nonNegative d) : Reachable nonNegative d.settle.2 := h.settleFor _

end Reachable

end Desk

end DoubleEntry
