import DoubleEntry.Database.Statement
import DoubleEntry.Metrics
set_option autoImplicit false

/-! # Timers

An operation starts a timer before it sends its statement, and stops it when the result has been
read. An operation that fails before that never stops its timer. A timer that goes out of scope
without having been stopped observes its time then.
-/

namespace DoubleEntry.Database

/-- A timer for the statements of one name, which was started. -/
structure Timer where
  label : String
  /-- Whether its time has been observed. -/
  observed : Bool := false
  deriving DecidableEq, Repr

namespace Timer

/-- Stops a timer, and observes its time. -/
def stop (t : Timer) (m : Metrics) : Timer × Metrics :=
  ({ t with observed := true }, m.recordQuery t.label)

/-- A timer goes out of scope. -/
def drop (t : Timer) (m : Metrics) : Metrics := if t.observed then m else m.recordQuery t.label

end Timer

/-- The timer that an operation starts, if it is timed. -/
def Operation.timer? (op : Operation) : Option Timer := op.label?.map fun label => { label }

end DoubleEntry.Database
