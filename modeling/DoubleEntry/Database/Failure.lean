import DoubleEntry.Database.Statement
import DoubleEntry.Error
import DoubleEntry.Text.Quoted
set_option autoImplicit false

/-! # How a database fails

What can go wrong between a ledger and its database, and what kind of error of the ledger it is: a
refused write is a violated constraint, a failed transport a lost connection, and everything else an
error of the database. Whatever goes wrong when a transaction is begun, committed or rolled back has
a kind of its own.
-/

namespace DoubleEntry.Database

/-- An error that a backend reports. -/
structure Rejection where
  /-- The code of the error, five characters long. -/
  code : String
  message : String
  /-- The constraint that refused the statement, which may have an empty name. -/
  constraint : Option String := none
  deriving DecidableEq, Repr

/-- The codes of broken integrity constraints and of numbers out of range. -/
def Rejection.constraintCodes : List String := ["23503", "23514", "23505", "22003", "23502"]

/-- Whether a backend refused a statement because of the values in it. -/
def Rejection.isConstraint (r : Rejection) : Bool := constraintCodes.contains r.code

/-- What went wrong between a ledger and its database. -/
inductive Failure where
  | rejected (r : Rejection)
  | io (reason : String)
  | tls (reason : String)
  | protocol (reason : String)
  | poolTimedOut
  | poolClosed
  | workerCrashed
  /-- A query that must return a row returned none. -/
  | rowNotFound
  /-- The value in a column of a row could not be read. -/
  | column (name reason : String)
  /-- The address of the database cannot be used. -/
  | address (reason : String)
  /-- A transaction was not open after it was begun. -/
  | notBegun
  /-- Anything else. -/
  | other (reason : String)
  deriving DecidableEq, Repr

namespace Failure

/-- What is told about a failure. -/
def message : Failure → String
  | .rejected r => "error returned from database: " ++ r.message
  | .io reason => "error communicating with database: " ++ reason
  | .tls reason => "error occurred while attempting to establish a TLS connection: " ++ reason
  | .protocol reason => "encountered unexpected or invalid data: " ++ reason
  | .poolTimedOut => "pool timed out while waiting for an open connection"
  | .poolClosed => "attempted to acquire a connection on a closed pool"
  | .workerCrashed => "attempted to communicate with a crashed background worker"
  | .rowNotFound => "no rows returned by a query that expected to return at least one row"
  | .column name reason =>
      "error occurred while decoding column " ++ Text.quoted name ++ ": " ++ reason
  | .address reason => "error with configuration: " ++ reason
  | .notBegun => "got unexpected connection status after attempting to begin transaction"
  | .other reason => reason

/-- A connection ended where the head of the next message was awaited. -/
def endOfConnection : Failure := .io "expected to read 5 bytes, got 0 bytes at EOF"

/-- A backend sent a message that does not belong where it came. -/
def unexpectedMessage : Failure := .protocol "execute: unexpected message: CopyInResponse"

/-- A column holds no value. -/
def nullColumn (name : String) : Failure :=
  .column name "unexpected null; try decoding as an `Option`"

/-- Whether the transport failed, so that nothing is known about what the backend did. -/
def isTransport : Failure → Bool
  | .io _ | .tls _ | .protocol _ | .poolTimedOut | .poolClosed | .workerCrashed => true
  | _ => false

/-- The error of a ledger that failed to do something. -/
def whileDoing (f : Failure) (title : String) : LedgerError :=
  if f.isTransport then .connectionLost ("Failed to " ++ title ++ ": " ++ f.message)
  else .database ("Failed to " ++ title ++ ": " ++ f.message)

/-- The error of a ledger that could not connect to its database. -/
def whileConnecting (f : Failure) : LedgerError :=
  .connectionFailure ("Failed to connect: " ++ f.message)

/-- The error of a ledger that could not begin a transaction. -/
def whileBeginning (f : Failure) : LedgerError :=
  .connectionFailure ("Failed to begin transaction: " ++ f.message)

/-- The error of a ledger that could not commit a transaction. -/
def whileCommitting (f : Failure) : LedgerError :=
  .commitFailure ("Failed to commit transaction: " ++ f.message)

/-- The error of a ledger that could not roll a transaction back. -/
def whileRollingBack (f : Failure) : LedgerError :=
  .rollbackFailure ("Failed to roll back transaction: " ++ f.message)

end Failure

/-- **The error of an operation that failed.** Only a write can violate a constraint. -/
def Operation.error (op : Operation) (f : Failure) : LedgerError :=
  match f with
  | .rejected r =>
      if op.isWrite ∧ r.isConstraint then
        .constraintViolation (.refused op.title r.constraint r.message)
      else f.whileDoing op.title
  | f => f.whileDoing op.title

end DoubleEntry.Database
