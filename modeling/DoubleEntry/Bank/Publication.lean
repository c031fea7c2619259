import DoubleEntry.Bank.Work
set_option autoImplicit false

/-! # The publication of a commit

A commit writes its rows to the tables one after the other. It holds the visibility of the bank
exclusively meanwhile, as a statement does that changes or deletes an account, and queries hold it
shared. So no query is answered in the middle of a commit. The two counts are read without it.
-/

namespace DoubleEntry

/-- A row that a commit writes. -/
inductive Posting where
  | transfer (t : Transfer)
  | entry (e : Entry)
  /-- The working copy of a locked row becomes its committed version. -/
  | account (number : Int)
  deriving DecidableEq, Repr

/-- What a commit writes: the staged transfers, then the staged entries, then the locked rows. -/
def Work.postings (w : Work) : List Posting :=
  w.transfers.map .transfer ++ w.entries.map .entry ++ w.held.map fun h => .account h.account

/-- Who holds the visibility of a bank. -/
inductive Visibility where
  /-- The readers that are inside; nobody holds the visibility if there are none. -/
  | shared (readers : List Nat)
  /-- A commit, with the rows that it has still to write. -/
  | exclusive (o : Owner) (rest : List Posting)
  deriving DecidableEq, Repr

namespace Bank

/-- Writes a row. -/
def post (b : Bank) : Posting → Bank
  | .transfer t => { b with transfers := b.transfers.insert t.id t }
  | .entry e => { b with entries := b.entries.insert e.id e }
  | .account number => b.modifyRow number fun r => { r with committed := r.working }

/-- Writes rows, one after the other. -/
def postAll (b : Bank) (ps : List Posting) : Bank := ps.foldl post b

/-- Ends a unit of work whose rows are written: its pins and its locks are given back. -/
def conclude (b : Bank) (o : Owner) : Bank :=
  ((b.unpinAll (b.work o).pinned).releaseAll (b.work o).held).closeWork o

end Bank

end DoubleEntry
