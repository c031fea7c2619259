import DoubleEntry.Page
import DoubleEntry.Records
set_option autoImplicit false

/-! # Statements to a database

The operations on a ledger that is kept in a PostgreSQL database, and the statements that carry them
out. An operation is one statement; transactions are begun and ended by statements of their own.
-/

namespace DoubleEntry.Database

/-- A parameter of a statement. -/
inductive Parameter where
  | int (n : Int)
  | text (s : String)
  deriving DecidableEq, Repr

/-- A statement as a backend gets it. -/
inductive Statement where
  | begin
  | commit
  | rollback
  | query (sql : String) (parameters : List Parameter)
  deriving DecidableEq, Repr

/-- The text of a statement. -/
def Statement.sql : Statement → String
  | .begin => "BEGIN"
  | .commit => "COMMIT"
  | .rollback => "ROLLBACK"
  | .query sql _ => sql

/-- An operation on a ledger that is one statement to its database. -/
inductive Operation where
  | createTransfer (n : NewTransfer)
  | createEntry (n : NewEntry)
  | addBalance (account delta : Int)
  | createAccount (n : NewAccount)
  | getAccount (id : Int)
  | listAccounts (page : Page)
  | updateAccount (id balance : Int)
  | deleteAccount (id : Int)
  | getEntry (id : Int)
  | listEntries (account : Int) (page : Page)
  | getTransfer (id : Int)
  | listTransfers (source target : Int) (page : Page)
  | healthCheck
  deriving DecidableEq, Repr

namespace Operation

/-- What an operation answers when it succeeds. -/
def Answer : Operation → Type
  | .createTransfer _ => Transfer
  | .createEntry _ => Entry
  | .addBalance _ _ => Account
  | .createAccount _ => Account
  | .getAccount _ => Option Account
  | .listAccounts _ => List Account
  | .updateAccount _ _ => Option Account
  | .deleteAccount _ => Bool
  | .getEntry _ => Option Entry
  | .listEntries _ _ => List Entry
  | .getTransfer _ => Option Transfer
  | .listTransfers _ _ _ => List Transfer
  | .healthCheck => Unit

/-- What an operation is called in messages. -/
def title : Operation → String
  | .createTransfer _ => "create transfer"
  | .createEntry _ => "create entry"
  | .addBalance _ _ => "add account balance"
  | .createAccount _ => "create account"
  | .getAccount _ => "get account"
  | .listAccounts _ => "list accounts"
  | .updateAccount _ _ => "update account"
  | .deleteAccount _ => "delete account"
  | .getEntry _ => "get entry"
  | .listEntries _ _ => "list entries"
  | .getTransfer _ => "get transfer"
  | .listTransfers _ _ _ => "list transfers"
  | .healthCheck => "run health check"

/-- The label under which an operation is timed; health checks are not timed. -/
def label? : Operation → Option String
  | .createTransfer _ => some "create_transfer"
  | .createEntry _ => some "create_entry"
  | .addBalance _ _ => some "add_account_balance"
  | .createAccount _ => some "create_account"
  | .getAccount _ => some "get_account"
  | .listAccounts _ => some "list_accounts"
  | .updateAccount _ _ => some "update_account"
  | .deleteAccount _ => some "delete_account"
  | .getEntry _ => some "get_entry"
  | .listEntries _ _ => some "list_entries"
  | .getTransfer _ => some "get_transfer"
  | .listTransfers _ _ _ => some "list_transfers"
  | .healthCheck => none

/-- Whether an operation changes the ledger, so that a constraint can refuse it. -/
def isWrite : Operation → Bool
  | .createTransfer _ | .createEntry _ | .addBalance _ _ | .createAccount _ | .updateAccount _ _
  | .deleteAccount _ => true
  | _ => false

/-- The columns of accounts. -/
def accountColumns : String := "id, owner, balance, currency, created_at"

/-- The columns of entries. -/
def entryColumns : String := "id, account_id, amount, created_at"

/-- The columns of transfers. -/
def transferColumns : String := "id, from_account_id, to_account_id, amount, created_at"

/-- The text of the statement for an operation. -/
def sql : Operation → String
  | .createTransfer _ =>
      "INSERT INTO transfers (from_account_id, to_account_id, amount) VALUES ($1, $2, $3) RETURNING " ++
        transferColumns
  | .createEntry _ =>
      "INSERT INTO entries (account_id, amount) VALUES ($1, $2) RETURNING " ++ entryColumns
  | .addBalance _ _ =>
      "UPDATE accounts SET balance = balance + $1 WHERE id = $2 RETURNING " ++ accountColumns
  | .createAccount _ =>
      "INSERT INTO accounts (owner, balance, currency) VALUES ($1, $2, $3) RETURNING " ++
        accountColumns
  | .getAccount _ => "SELECT " ++ accountColumns ++ " FROM accounts WHERE id = $1"
  | .listAccounts _ =>
      "SELECT " ++ accountColumns ++ " FROM accounts ORDER BY id LIMIT $1 OFFSET $2"
  | .updateAccount _ _ =>
      "UPDATE accounts SET balance = $2 WHERE id = $1 RETURNING " ++ accountColumns
  | .deleteAccount _ => "DELETE FROM accounts WHERE id = $1"
  | .getEntry _ => "SELECT " ++ entryColumns ++ " FROM entries WHERE id = $1"
  | .listEntries _ _ =>
      "SELECT " ++ entryColumns ++
        " FROM entries WHERE account_id = $1 ORDER BY id LIMIT $2 OFFSET $3"
  | .getTransfer _ => "SELECT " ++ transferColumns ++ " FROM transfers WHERE id = $1"
  | .listTransfers _ _ _ =>
      "SELECT " ++ transferColumns ++
        " FROM transfers WHERE from_account_id = $1 OR to_account_id = $2 ORDER BY id " ++
        "LIMIT $3 OFFSET $4"
  | .healthCheck => "SELECT 1"

/-- The parameters that ask for a page. -/
def pageParameters (page : Page) : List Parameter := [.int page.clampedLimit, .int page.clampedOffset]

/-- The parameters of the statement for an operation. -/
def parameters : Operation → List Parameter
  | .createTransfer n => [.int n.source, .int n.target, .int n.amount]
  | .createEntry n => [.int n.account, .int n.amount]
  | .addBalance account delta => [.int delta, .int account]
  | .createAccount n => [.text n.owner, .int n.balance, .text n.currency.code]
  | .getAccount id => [.int id]
  | .listAccounts page => pageParameters page
  | .updateAccount id balance => [.int id, .int balance]
  | .deleteAccount id => [.int id]
  | .getEntry id => [.int id]
  | .listEntries account page => .int account :: pageParameters page
  | .getTransfer id => [.int id]
  | .listTransfers source target page => .int source :: .int target :: pageParameters page
  | .healthCheck => []

/-- The statement for an operation. -/
def statement (op : Operation) : Statement := .query op.sql op.parameters

end Operation

end DoubleEntry.Database
