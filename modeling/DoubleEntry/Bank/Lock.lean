import DoubleEntry.Bank.Basic
set_option autoImplicit false

/-! # Row locks

A row is locked by one owner at a time. Whoever asks for a locked row waits behind those who asked
before, and a lock that is released goes at once to whoever has waited longest. The row can be
deleted in the meantime, so whoever gets a lock looks for the row again.
-/

namespace DoubleEntry

namespace Lock

/-- The lock after its holder has released it: it goes to the longest waiting owner. -/
def next? (l : Lock) : Option Lock :=
  match l.waiting with
  | [] => none
  | o :: rest => some ⟨o, rest⟩

/-- The lock with one more owner waiting for it, unless that owner already waits. -/
def enqueue (l : Lock) (o : Owner) : Lock :=
  if o ∈ l.waiting then l else { l with waiting := l.waiting ++ [o] }

/-- The lock with an owner no longer waiting for it. -/
def leave (l : Lock) (o : Owner) : Lock := { l with waiting := l.waiting.filter (· ≠ o) }

end Lock

/-- What an owner that asks for the lock of a row is told. -/
inductive Grant where
  | granted
  | waiting
  /-- There is no such row, or no longer. -/
  | missing
  deriving DecidableEq, Repr

namespace Bank

/-- Releases the lock of a row. -/
def release (b : Bank) (account : Int) : Bank :=
  match b.locks.get? account with
  | none => b
  | some l =>
      match l.next? with
      | some l => { b with locks := b.locks.insert account l }
      | none => { b with locks := b.locks.erase account }

/-- **Asks for the lock of a row.** An owner that waits asks again to find out whether it has been
given the lock. -/
def acquire (b : Bank) (o : Owner) (account : Int) : Grant × Bank :=
  match b.locks.get? account with
  | none =>
      if b.accounts.contains account then
        (.granted, { b with locks := b.locks.insert account ⟨o, []⟩ })
      else (.missing, b)
  | some l =>
      if l.holder = o then
        if b.accounts.contains account then (.granted, b) else (.missing, b.release account)
      else if o ∈ l.waiting then (.waiting, b)
      else if b.accounts.contains account then
        (.waiting, { b with locks := b.locks.insert account (l.enqueue o) })
      else (.missing, b)

/-- Stops waiting for the lock of a row; a lock that has been given in the meantime is released. -/
def abandon (b : Bank) (o : Owner) (account : Int) : Bank :=
  match b.locks.get? account with
  | none => b
  | some l =>
      if l.holder = o then b.release account
      else { b with locks := b.locks.insert account (l.leave o) }

end Bank

end DoubleEntry
