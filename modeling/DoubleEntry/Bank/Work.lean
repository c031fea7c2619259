import DoubleEntry.Amount
import DoubleEntry.Bank.Lock
import DoubleEntry.Transfer.Protocol
set_option autoImplicit false

/-! # Units of work

What can be done in a unit of work, and how it ends. `Bank.store` presents a bank to a transfer as a
ledger store.
-/

namespace DoubleEntry

namespace Work

/-- Whether the unit of work has locked the row of an account. -/
def holds (w : Work) (account : Int) : Bool := w.held.any fun h => h.account = account

end Work

namespace Bank

/-! ## Staging -/

/-- Pins the account that a row to be staged names. -/
def pin (b : Bank) (o : Owner) (kind : StagedKind) (account : Int) :
    Except LedgerError Unit × Bank :=
  if b.accounts.contains account then
    (.ok (), (b.modifyRow account fun r => { r with pins := r.pins + 1 }).modifyWork o fun w =>
      { w with pinned := w.pinned ++ [account] })
  else (.error (.constraintViolation (.missingAccount kind account)), b)

/-- Takes one pin off an account. -/
def unpin (b : Bank) (account : Int) : Bank :=
  b.modifyRow account fun r => { r with pins := r.pins - 1 }

/-- Takes all pins off that a list of accounts stands for. -/
def unpinAll (b : Bank) (accounts : List Int) : Bank := accounts.foldl unpin b

/-- Stages a transfer. Both accounts are pinned, the source first, before it gets its number. -/
def createTransfer (b : Bank) (o : Owner) (n : NewTransfer) : Except LedgerError Transfer × Bank :=
  match b.pin o .transfer n.source with
  | (.error e, b) => (.error e, b)
  | (.ok _, b) =>
      match b.pin o .transfer n.target with
      | (.error e, b) => (.error e, b)
      | (.ok _, b) =>
          let t : Transfer := ⟨b.nextTransfer, n.source, n.target, n.amount, b.clock⟩
          (.ok t, { b with nextTransfer := b.nextTransfer + 1 }.modifyWork o fun w =>
            { w with transfers := w.transfers ++ [t] })

/-- Stages an entry. Its account is pinned before it gets its number. -/
def createEntry (b : Bank) (o : Owner) (n : NewEntry) : Except LedgerError Entry × Bank :=
  match b.pin o .entry n.account with
  | (.error e, b) => (.error e, b)
  | (.ok _, b) =>
      let e : Entry := ⟨b.nextEntry, n.account, n.amount, b.clock⟩
      (.ok e, { b with nextEntry := b.nextEntry + 1 }.modifyWork o fun w =>
        { w with entries := w.entries ++ [e] })

/-! ## Adjusting balances -/

/-- Adds to the balance in the working copy of a row. -/
def adjust (b : Bank) (account delta : Int) : Except LedgerError Account × Bank :=
  match b.accounts.get? account with
  | none => (.error (.accountNotFound account), b)
  | some row =>
      match Amount.add? row.working.balance delta with
      | none => (.error (.constraintViolation (.balanceOutOfRange account)), b)
      | some balance =>
          match b.checkBalance account balance with
          | .error e => (.error e, b)
          | .ok _ =>
              let working := { row.working with balance }
              (.ok working, b.modifyRow account fun r => { r with working })

/-- Notes that a unit of work has locked a row, and the balance that the row has. -/
def hold (b : Bank) (o : Owner) (account : Int) : Bank :=
  match b.accounts.get? account with
  | none => b
  | some row => b.modifyWork o fun w =>
      { w with held := w.held ++ [⟨account, row.working.balance⟩] }

/-- **Adds to the balance of an account,** whose row the unit of work locks until it ends. Without
an answer the unit of work waits for the lock. An adjustment that is rejected leaves the row
locked. -/
def addBalance (b : Bank) (o : Owner) (account delta : Int) :
    Option (Except LedgerError Account) × Bank :=
  if (b.work o).holds account then
    let (r, b) := b.adjust account delta
    (some r, b)
  else
    match b.acquire o account with
    | (.missing, b) => (some (.error (.accountNotFound account)), b)
    | (.waiting, b) => (none, b)
    | (.granted, b) =>
        let (r, b) := (b.hold o account).adjust account delta
        (some r, b)

/-! ## Ending a unit of work -/

/-- Makes the working copies of the locked rows the committed versions. -/
def publish (b : Bank) (held : List Hold) : Bank :=
  held.foldl (fun b h => b.modifyRow h.account fun r => { r with committed := r.working }) b

/-- Gives the working copies of the locked rows back the balances that they had. -/
def restore (b : Bank) (held : List Hold) : Bank :=
  held.foldl (fun b h => b.modifyRow h.account fun r =>
    { r with working := { r.working with balance := h.prior } }) b

/-- Releases the locks of the locked rows. -/
def releaseAll (b : Bank) (held : List Hold) : Bank :=
  held.foldl (fun b h => b.release h.account) b

/-- Puts staged transfers and entries into the tables. -/
def insertStaged (b : Bank) (w : Work) : Bank :=
  { b with
    transfers := w.transfers.foldl (fun t x => t.insert x.id x) b.transfers
    entries := w.entries.foldl (fun t x => t.insert x.id x) b.entries }

/-- **Ends a unit of work and publishes what it did.** Nothing else happens meanwhile that needs the
visibility of the bank. -/
def commit (b : Bank) (o : Owner) : Bank :=
  match b.work? o with
  | none => b
  | some w =>
      ((((b.insertStaged w).publish w.held).unpinAll w.pinned).releaseAll w.held).closeWork o

/-- **Ends a unit of work and undoes what it did.** A unit of work that is dropped ends in the same
way. -/
def rollback (b : Bank) (o : Owner) : Bank :=
  match b.work? o with
  | none => b
  | some w => (((b.restore w.held).releaseAll w.held).unpinAll w.pinned).closeWork o

/-! ## The bank as a ledger store -/

/-- A bank as it is seen by the transfer that is carried out under the name of an owner. A fault in
the place of the commit leaves the unit of work to be dropped; one in the place of the rollback is
only reported afterwards. -/
def store (o : Owner) : Store Bank where
  perform
    | .begin, b => (some (.ok ()), b.begin o)
    | .createTransfer n, b => let (r, b) := b.createTransfer o n; (some r, b)
    | .createEntry n, b => let (r, b) := b.createEntry o n; (some r, b)
    | .addBalance account delta, b => b.addBalance o account delta
    | .commit, b => (some (.ok ()), b.commit o)
    | .rollback, b => (some (.ok ()), b.rollback o)
  refuse
    | .commit, b | .rollback, b => b.rollback o
    | _, b => b

end Bank

end DoubleEntry
