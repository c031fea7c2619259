set_option autoImplicit false

/-! # Errors of the ledger

Why an operation on the ledger fails. A failure while a failed unit of work is rolled back does not
replace the failure that caused the rollback: both are kept in a composite, and the composite is
judged by its cause (`LedgerError.isTransient`, `LedgerError.sources`).
-/

namespace DoubleEntry

/-- What a staged row is, when the account it names does not exist. -/
inductive StagedKind where
  | transfer
  | entry
  deriving DecidableEq, Repr

/-- The rule that a rejected change would have broken. -/
inductive Violation where
  /-- A staged row names an account that does not exist. -/
  | missingAccount (kind : StagedKind) (account : Int)
  /-- A balance would leave the range of amounts. -/
  | balanceOutOfRange (account : Int)
  /-- A balance would be negative where balances must not be. -/
  | negativeBalance (account balance : Int)
  /-- An account that entries or transfers refer to would be deleted. -/
  | accountReferenced (account : Int)
  /-- A database refused the statement for an operation, and may have named the rule. -/
  | refused (operation : String) (constraint : Option String) (reason : String)
  /-- A rule given by its text alone. -/
  | other (text : String)
  deriving DecidableEq, Repr

/-- What is told about a broken rule. -/
def Violation.message : Violation → String
  | .missingAccount .transfer a =>
      "create transfer rejected: account " ++ toString a ++ " does not exist"
  | .missingAccount .entry a => "create entry rejected: account " ++ toString a ++ " does not exist"
  | .balanceOutOfRange a => "balance of account " ++ toString a ++ " out of range"
  | .negativeBalance a b =>
      "balance of account " ++ toString a ++ " rejected by accounts_balance_non_negative: " ++
        toString b
  | .accountReferenced a =>
      "delete account rejected: account " ++ toString a ++ " is referenced by the ledger"
  | .refused operation (some constraint) reason =>
      operation ++ " rejected by " ++ constraint ++ ": " ++ reason
  | .refused operation none reason => operation ++ " rejected: " ++ reason
  | .other text => text

/-- Why an operation on the ledger failed. -/
inductive LedgerError where
  | accountNotFound (account : Int)
  | constraintViolation (violation : Violation)
  | connectionFailure (reason : String)
  | connectionLost (reason : String)
  | commitFailure (reason : String)
  | rollbackFailure (reason : String)
  /-- A unit of work failed with `error`, and rolling it back failed with `rollback`. -/
  | rollbackAfterFailure (error rollback : LedgerError)
  | database (reason : String)
  | configuration (reason : String)
  deriving DecidableEq, Repr

namespace LedgerError

/-- What is told about an error. -/
def message : LedgerError → String
  | .accountNotFound a => "Account " ++ toString a ++ " not found"
  | .constraintViolation v => "Constraint violation: " ++ v.message
  | .connectionFailure r => "Connection failure: " ++ r
  | .connectionLost r => "Connection lost: " ++ r
  | .commitFailure r => "Commit failed: " ++ r
  | .rollbackFailure r => "Rollback failed: " ++ r
  | .rollbackAfterFailure e r => "tx error: " ++ e.message ++ ", rollback error: " ++ r.message
  | .database r => "Database error: " ++ r
  | .configuration r => "Configuration error: " ++ r

/-- The label under which errors of a kind are counted. -/
def label : LedgerError → String
  | .accountNotFound _ => "account_not_found"
  | .constraintViolation _ => "constraint_violation"
  | .connectionFailure _ => "connection_failure"
  | .connectionLost _ => "connection_lost"
  | .commitFailure _ => "commit_failure"
  | .rollbackFailure _ => "rollback_failure"
  | .rollbackAfterFailure _ _ => "rollback_after_failure"
  | .database _ => "db_error"
  | .configuration _ => "config_error"

/-- Whether trying again may help: the connection was at fault. A composite is judged by the error
that caused the rollback. -/
def isTransient : LedgerError → Bool
  | .connectionFailure _ | .connectionLost _ => true
  | .rollbackAfterFailure e _ => e.isTransient
  | _ => false

/-- The error that an error was caused by. -/
def source? : LedgerError → Option LedgerError
  | .rollbackAfterFailure e _ => some e
  | _ => none

/-- The chain of causes of an error, from the outside in. -/
def sources : LedgerError → List LedgerError
  | .rollbackAfterFailure e _ => e :: e.sources
  | _ => []

/-- Keeps the failure of a rollback together with the error that caused the rollback. -/
def withRollbackFailure (e rollback : LedgerError) : LedgerError := .rollbackAfterFailure e rollback

end LedgerError

end DoubleEntry
