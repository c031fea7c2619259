import DoubleEntry.Database.Failure
set_option autoImplicit false

/-! # Rows of a database

What a backend returns for a statement, and how records are read from it. The columns of a record
are read in the order in which the record declares them, so that the first one without a value
decides the failure.
-/

namespace DoubleEntry.Database

/-- The value in a column of a row. -/
inductive Cell where
  | int (n : Int)
  | text (s : String)
  deriving DecidableEq, Repr

/-- A row: the columns that have a value. -/
abbrev Row := List (String × Cell)

/-- What a backend returns for a statement that it executed. -/
structure Result where
  rows : List Row := []
  /-- How many rows the statement changed. -/
  affected : Nat := 0
  deriving DecidableEq, Repr, Inhabited

namespace Row

/-- A column that holds a number. -/
def int (r : Row) (column : String) : Except Failure Int :=
  match r.lookup column with
  | some (.int n) => .ok n
  | some (.text _) => .error (.column column "mismatched types")
  | none => .error (.nullColumn column)

/-- A column that holds a text. -/
def text (r : Row) (column : String) : Except Failure String :=
  match r.lookup column with
  | some (.text s) => .ok s
  | some (.int _) => .error (.column column "mismatched types")
  | none => .error (.nullColumn column)

/-- A column that holds a time, in microseconds since the beginning of the year 2000. -/
def timestamp (r : Row) (column : String) : Except Failure Timestamp := do
  match Timestamp.ofMicroseconds2000? (← r.int column) with
  | some t => return t
  | none => throw (.column column "timestamp out of range")

/-- Reads an account. -/
def account (r : Row) : Except Failure Account := do
  let id ← r.int "id"
  let owner ← r.text "owner"
  let balance ← r.int "balance"
  let currency ← r.text "currency"
  let createdAt ← r.timestamp "created_at"
  return { id, owner, balance, currency, createdAt }

/-- Reads an entry. -/
def entry (r : Row) : Except Failure Entry := do
  let id ← r.int "id"
  let account ← r.int "account_id"
  let amount ← r.int "amount"
  let createdAt ← r.timestamp "created_at"
  return { id, account, amount, createdAt }

/-- Reads a transfer. -/
def transfer (r : Row) : Except Failure Transfer := do
  let id ← r.int "id"
  let source ← r.int "from_account_id"
  let target ← r.int "to_account_id"
  let amount ← r.int "amount"
  let createdAt ← r.timestamp "created_at"
  return { id, source, target, amount, createdAt }

end Row

namespace Result

variable {α : Type}

/-- The record in the first row, if there is a row. -/
def first? (r : Result) (read : Row → Except Failure α) : Except Failure (Option α) :=
  match r.rows with
  | [] => .ok none
  | row :: _ => some <$> read row

/-- The record in the first row, which must be there. -/
def first (r : Result) (read : Row → Except Failure α) : Except Failure α :=
  match r.rows with
  | [] => .error .rowNotFound
  | row :: _ => read row

/-- The records in all rows, in the order of the rows. -/
def all (r : Result) (read : Row → Except Failure α) : Except Failure (List α) := r.rows.mapM read

end Result

namespace Operation

/-- What an operation reads from the result of its statement. -/
def read : (op : Operation) → Result → Except Failure (Except LedgerError op.Answer)
  | .createTransfer _, r => .ok <$> r.first Row.transfer
  | .createEntry _, r => .ok <$> r.first Row.entry
  | .addBalance account _, r => do
      match ← r.first? Row.account with
      | some a => return .ok a
      | none => return .error (.accountNotFound account)
  | .createAccount _, r => .ok <$> r.first Row.account
  | .getAccount _, r => .ok <$> r.first? Row.account
  | .listAccounts _, r => .ok <$> r.all Row.account
  | .updateAccount _ _, r => .ok <$> r.first? Row.account
  | .deleteAccount _, r => .ok (.ok (decide (0 < r.affected)))
  | .getEntry _, r => .ok <$> r.first? Row.entry
  | .listEntries _ _, r => .ok <$> r.all Row.entry
  | .getTransfer _, r => .ok <$> r.first? Row.transfer
  | .listTransfers _ _ _, r => .ok <$> r.all Row.transfer
  | .healthCheck, _ => .ok (.ok ())

/-- What an operation gets from its statement: the error with which it fails then and there, or what
it has read. -/
def fetch (op : Operation) (r : Except Failure Result) :
    Except LedgerError (Except LedgerError op.Answer) :=
  match r with
  | .error f => .error (op.error f)
  | .ok result =>
      match op.read result with
      | .error f => .error (op.error f)
      | .ok answer => .ok answer

/-- **What an operation answers** when its statement had a result or failed. -/
def conclude (op : Operation) (r : Except Failure Result) : Except LedgerError op.Answer :=
  match op.fetch r with
  | .error e => .error e
  | .ok answer => answer

end Operation

end DoubleEntry.Database
