import DoubleEntry.Error
import DoubleEntry.Owner
import DoubleEntry.Records
import DoubleEntry.Table
set_option autoImplicit false

/-! # A bank in memory

The state of a ledger that is kept in memory, open units of work included.

Every account row has two versions: the committed one, which is all that readers see, and the
working copy of whoever holds the lock of the row. A unit of work locks the rows whose balances it
adjusts and remembers what they held before; it stages transfers and entries, and pins the accounts
that these name, so that they cannot be deleted. Nothing of it is visible before it commits, and all
of it then.
-/

namespace DoubleEntry

/-- The lock of a row: who holds it, and who waits for it, the longest waiting first. -/
structure Lock where
  holder : Owner
  waiting : List Owner := []
  deriving DecidableEq, Repr

/-- The row of an account. -/
structure Row where
  /-- The last committed version, which readers see. -/
  committed : Account
  /-- The version of whoever holds the lock. -/
  working : Account
  /-- How often staged transfers and entries of open units of work name the account. -/
  pins : Nat := 0
  deriving DecidableEq, Repr

/-- A row that a unit of work has locked, with the balance that it had then. -/
structure Hold where
  account : Int
  prior : Int
  deriving DecidableEq, Repr

/-- What an open unit of work has locked, pinned and staged, each in the order in which it did. -/
structure Work where
  held : List Hold := []
  pinned : List Int := []
  transfers : List Transfer := []
  entries : List Entry := []
  deriving DecidableEq, Repr, Inhabited

/-- The state of a bank. -/
structure Bank where
  /-- Whether balances must not be negative. -/
  nonNegative : Bool
  /-- The time that new rows are stamped with. -/
  clock : Timestamp := .epoch
  accounts : Table Row := .empty
  entries : Table Entry := .empty
  transfers : Table Transfer := .empty
  /-- The number of the next account, entry and transfer; numbers are never used again. -/
  nextAccount : Int := 1
  nextEntry : Int := 1
  nextTransfer : Int := 1
  /-- The locks that are held, by the number of the account. A lock outlives its row while someone
  waits for it. -/
  locks : Table Lock := .empty
  /-- The open units of work, in the order in which they were begun. -/
  works : List (Owner × Work) := []
  deriving DecidableEq, Repr

namespace Bank

/-- A bank without accounts. -/
def empty (nonNegative : Bool) : Bank := { nonNegative }

/-! ## Open units of work -/

/-- The open unit of work of an owner. -/
def work? (b : Bank) (o : Owner) : Option Work := b.works.lookup o

/-- What an owner has locked, pinned and staged: nothing without an open unit of work. -/
def work (b : Bank) (o : Owner) : Work := (b.work? o).getD {}

/-- Opens a unit of work. -/
def begin (b : Bank) (o : Owner) : Bank := { b with works := b.works ++ [(o, {})] }

/-- Changes the open unit of work of an owner. -/
def modifyWork (b : Bank) (o : Owner) (f : Work → Work) : Bank :=
  { b with works := b.works.map fun x => if x.1 = o then (o, f x.2) else x }

/-- Forgets the open unit of work of an owner. -/
def closeWork (b : Bank) (o : Owner) : Bank :=
  { b with works := b.works.filter fun x => x.1 ≠ o }

/-! ## Rows -/

/-- Changes the row of an account. -/
def modifyRow (b : Bank) (account : Int) (f : Row → Row) : Bank :=
  { b with accounts := b.accounts.modify account f }

/-- Whether an account may have a balance. -/
def checkBalance (b : Bank) (account balance : Int) : Except LedgerError Unit :=
  if b.nonNegative ∧ balance < 0 then
    .error (.constraintViolation (.negativeBalance account balance))
  else .ok ()

/-- Whether a committed entry or transfer names an account. -/
def isReferenced (b : Bank) (account : Int) : Bool :=
  b.entries.toList.any (fun e => e.account = account) ||
    b.transfers.toList.any (fun t => t.source = account || t.target = account)

end Bank

end DoubleEntry
