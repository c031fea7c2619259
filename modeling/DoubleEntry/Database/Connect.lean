import DoubleEntry.Database.Address
set_option autoImplicit false

/-! # Connecting to a database -/

namespace DoubleEntry.Database

/-- How the backend at an address meets a client that connects. -/
inductive Welcome where
  | accepted
  | refused (r : Rejection)
  /-- Nobody is there. -/
  | absent
  deriving DecidableEq, Repr

/-- The errors of a backend that may have gone when a client tries again: it has too many
connections, or it is starting up. -/
def Rejection.passingCodes : List String := ["53300", "57P03"]

/-- Why a client cannot connect. A client that is refused for a reason that may pass, or finds
nobody, tries again until its time is up. -/
def Welcome.failure? : Welcome → Option Failure
  | .accepted => none
  | .refused r =>
      if Rejection.passingCodes.contains r.code then some .poolTimedOut else some (.rejected r)
  | .absent => some .poolTimedOut

/-- **Connects to the database at an address.** An unusable address is found before anyone is there
to answer. -/
def connect (url : String) (welcome : Welcome) : Except LedgerError Unit :=
  match Address.fault? url with
  | some fault => .error fault.failure.whileConnecting
  | none =>
      match welcome.failure? with
      | some f => .error f.whileConnecting
      | none => .ok ()

end DoubleEntry.Database
