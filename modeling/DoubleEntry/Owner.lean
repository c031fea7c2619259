set_option autoImplicit false

/-! # Who works on a ledger -/

namespace DoubleEntry

/-- Who does something on a ledger: a unit of work that was opened under a name, or a call that
works on its own account. -/
inductive Owner where
  | unit (name : String)
  | call (number : Nat)
  deriving DecidableEq, Repr

/-- The name of an owner: that of its unit of work, or none. -/
def Owner.name : Owner → String
  | .unit name => name
  | .call _ => ""

end DoubleEntry
