import DoubleEntry.Currency
import DoubleEntry.Timestamp
set_option autoImplicit false

/-! # The records of a ledger

Accounts hold a balance. A transfer moves an amount between two accounts and is matched by two
entries, one for each account: a debit and a credit of the same size.
-/

namespace DoubleEntry

/-- An account. -/
structure Account where
  id : Int
  owner : String
  balance : Int
  /-- The code of the currency, which need not be one of the supported ones. -/
  currency : String
  createdAt : Timestamp
  deriving DecidableEq, Repr, Inhabited

/-- The currency of an account, if it is a supported one. -/
def Account.currency? (a : Account) : Option Currency := Currency.ofCode? a.currency

/-- What is given to open an account. -/
structure NewAccount where
  owner : String
  balance : Int
  currency : Currency
  deriving DecidableEq, Repr, Inhabited

/-- One side of a movement of money: a debit when the amount is negative, a credit when it is
positive. -/
structure Entry where
  id : Int
  account : Int
  amount : Int
  createdAt : Timestamp
  deriving DecidableEq, Repr, Inhabited

/-- Whether an entry takes money from its account. -/
def Entry.isDebit (e : Entry) : Bool := e.amount < 0

/-- Whether an entry gives money to its account. -/
def Entry.isCredit (e : Entry) : Bool := 0 < e.amount

/-- What is given to record an entry. -/
structure NewEntry where
  account : Int
  amount : Int
  deriving DecidableEq, Repr, Inhabited

/-- A movement of money between two accounts. -/
structure Transfer where
  id : Int
  source : Int
  target : Int
  amount : Int
  createdAt : Timestamp
  deriving DecidableEq, Repr, Inhabited

/-- What is given to record a transfer, or to carry one out. -/
structure NewTransfer where
  source : Int
  target : Int
  amount : Int
  deriving DecidableEq, Repr, Inhabited

/-- What a transfer that was carried out leaves behind. -/
structure Receipt where
  transfer : Transfer
  source : Account
  target : Account
  debit : Entry
  credit : Entry
  deriving DecidableEq, Repr, Inhabited

end DoubleEntry
