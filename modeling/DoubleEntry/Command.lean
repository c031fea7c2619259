import DoubleEntry.Page
import DoubleEntry.Transfer.Protocol
set_option autoImplicit false

/-! # Commands to a ledger

What can be asked of a ledger, however it is kept, and the values it answers with. Units of work are
opened under names; a name is free again when its unit of work has ended.
-/

namespace DoubleEntry

/-- A question about what is committed. -/
inductive Query where
  | account (id : Int)
  | accounts (page : Page)
  | entry (id : Int)
  | entries (account : Int) (page : Page)
  | transfer (id : Int)
  | transfers (source target : Int) (page : Page)
  deriving DecidableEq, Repr

/-- What is done in a unit of work, or how it is ended. -/
inductive UnitAction where
  | createTransfer (n : NewTransfer)
  | createEntry (n : NewEntry)
  | addBalance (account delta : Int)
  | commit
  | rollback
  /-- Gives the unit of work up without ending it in order. -/
  | drop
  deriving DecidableEq, Repr

/-- A command to a ledger. -/
inductive Command where
  | query (q : Query)
  | createAccount (n : NewAccount)
  | updateAccount (id balance : Int)
  | deleteAccount (id : Int)
  | begin (unit : String)
  | onUnit (unit : String) (action : UnitAction)
  | transfer (n : NewTransfer) (faults : List Fault)
  deriving DecidableEq, Repr

/-- The value of an answer. -/
inductive Value where
  | nothing
  | flag (b : Bool)
  | account (a : Account)
  | accounts (as : List Account)
  | entry (e : Entry)
  | entries (es : List Entry)
  | transfer (t : Transfer)
  | transfers (ts : List Transfer)
  deriving DecidableEq, Repr

namespace Value

/-- An account that need not be there. -/
def optionalAccount : Option Account → Value
  | some a => .account a
  | none => .nothing

/-- An entry that need not be there. -/
def optionalEntry : Option Entry → Value
  | some e => .entry e
  | none => .nothing

/-- A transfer that need not be there. -/
def optionalTransfer : Option Transfer → Value
  | some t => .transfer t
  | none => .nothing

end Value

/-- What a command that ran to its end answers. -/
inductive Reply where
  | done (v : Value)
  | failed (e : LedgerError)
  /-- A transfer ended after it made some calls. -/
  | transfer (o : Outcome) (made : List Call)
  deriving DecidableEq, Repr

/-- The reply of a command that answers with a value of some type. -/
def Reply.of {α : Type} (value : α → Value) : Except LedgerError α → Reply
  | .ok a => .done (value a)
  | .error e => .failed e

/-- Why a command is not carried out at all. -/
inductive Refusal where
  /-- The name belongs to an open unit of work. -/
  | unitExists
  /-- The name belongs to an open unit of work, or too many of them are open. -/
  | unitExistsOrTooMany
  /-- An adjustment of the unit of work waits for a lock. -/
  | unitBusy
  /-- No unit of work is open under the name. -/
  | noSuchUnit
  /-- The call to cancel does not wait for anything. -/
  | notPending
  deriving DecidableEq, Repr

/-- What is told about a command that is not carried out. -/
def Refusal.message : Refusal → String
  | .unitExists => "unit of work exists"
  | .unitExistsOrTooMany => "unit of work exists or too many"
  | .unitBusy => "unit of work is busy"
  | .noSuchUnit => "no such unit of work"
  | .notPending => "step is not pending"

end DoubleEntry
