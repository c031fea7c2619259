import DoubleEntry.Bank.Basic
import DoubleEntry.Page
set_option autoImplicit false

/-! # Queries

Queries see what is committed and nothing else, and they never wait for a row. A listing is the page
of the rows that it selects, in the order of their numbers. The two counts are no queries: these hold
the visibility of the bank while they read, and the counts do not, so that a count can also be read
while a commit writes its rows.
-/

namespace DoubleEntry.Bank

/-- An account. -/
def getAccount (b : Bank) (id : Int) : Option Account := (b.accounts.get? id).map Row.committed

/-- All accounts, in the order of their numbers. -/
def allAccounts (b : Bank) : List Account := b.accounts.toList.map Row.committed

/-- A page of all accounts. -/
def listAccounts (b : Bank) (p : Page) : List Account := p.slice b.allAccounts

/-- An entry. -/
def getEntry (b : Bank) (id : Int) : Option Entry := b.entries.get? id

/-- The entries of an account, in the order of their numbers. -/
def entriesOf (b : Bank) (account : Int) : List Entry :=
  b.entries.toList.filter fun e => e.account = account

/-- A page of the entries of an account. -/
def listEntries (b : Bank) (account : Int) (p : Page) : List Entry := p.slice (b.entriesOf account)

/-- A transfer. -/
def getTransfer (b : Bank) (id : Int) : Option Transfer := b.transfers.get? id

/-- The transfers from one account or to another, in the order of their numbers. -/
def transfersOf (b : Bank) (source target : Int) : List Transfer :=
  b.transfers.toList.filter fun t => t.source = source || t.target = target

/-- A page of the transfers from one account or to another. -/
def listTransfers (b : Bank) (source target : Int) (p : Page) : List Transfer :=
  p.slice (b.transfersOf source target)

/-- The number of transfers, read from the table as it is. -/
def transferCount (b : Bank) : Nat := b.transfers.size

/-- The number of entries, read from the table as it is. -/
def entryCount (b : Bank) : Nat := b.entries.size

end DoubleEntry.Bank
