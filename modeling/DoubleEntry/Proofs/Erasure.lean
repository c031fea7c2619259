import DoubleEntry.Bank.Desk
import DoubleEntry.Proofs.Numbers
set_option autoImplicit false

/-! # A bank without one of its owners

What an owner has in flight can be taken out of a bank (`Bank.without`): its unit of work is gone,
the rows that it has locked have their balances back and their locks go to whoever waits for them,
and its pins are taken off. An owner that works within its own leaves the rest of the bank as it is,
so that once it has nothing in flight any more it is as if it had never been there
(`Bank.Within.eq_without`).
-/

namespace DoubleEntry

namespace Bank

/-- **The bank as it would be had an owner nothing in flight.** -/
def without (b : Bank) (o : Owner) : Bank :=
  { b with
    accounts := b.accounts.collect fun a r => some (r.without (b.work o) a)
    locks := b.locks.collect fun _ l => l.without o
    works := b.works.filter fun x => x.1 ≠ o }

variable {b b' : Bank} {o : Owner} {awaits : Owner → Option Int}

/-- Work within the own unit of work leaves the rest of the bank as it is, numbers apart. -/
theorem Within.without (h : b.Within o b') : b'.without o =
    { b.without o with nextEntry := b'.nextEntry, nextTransfer := b'.nextTransfer } := by
  have haccounts : (b'.accounts.collect fun a r => some (r.without (b'.work o) a)) =
      b.accounts.collect fun a r => some (r.without (b.work o) a) := by
    apply Table.ext
    intro a
    have ha := h.rows a
    rw [Table.get?_collect, Table.get?_collect]
    rwa [Option.map_eq_bind, Option.map_eq_bind] at ha
  have hlocks : (b'.locks.collect fun _ l => l.without o) =
      b.locks.collect fun _ l => l.without o := by
    apply Table.ext
    intro a
    rw [Table.get?_collect, Table.get?_collect]
    exact h.locks a
  unfold Bank.without
  rw [haccounts, hlocks, h.works, h.entries, h.transfers, h.nonNegative, h.clock, h.nextAccount]

/-- An owner that waits for nothing and has no open unit of work holds no lock and waits for
none. -/
theorem Sound.not_locking (h : b.Sound awaits) (ho : ¬ b.IsOpen o) (ha : awaits o = none) {a : Int}
    {l : Lock} (hl : b.locks.get? a = some l) : l.holder ≠ o ∧ o ∉ l.waiting := by
  constructor
  · rintro rfl
    rcases h.locking.holder hl with hheld | hasked
    · rw [heldBy_of_not_isOpen ho] at hheld
      cases hheld
    · rw [ha] at hasked
      cases hasked
  · intro hw
    have hasked := h.locking.waiter hl hw
    rw [ha] at hasked
    cases hasked

/-- The row of an account, if there is one, is locked by nobody. A lock can outlive its row. -/
def Unlocked (b : Bank) (a : Int) : Prop := b.accounts.contains a = true → b.locks.get? a = none

instance (b : Bank) (a : Int) : Decidable (b.Unlocked a) := inferInstanceAs (Decidable (_ → _))

/-- Whoever asks for the lock of a row that nobody has locked is given it. -/
theorem acquire_of_free {a : Int} (hl : b.locks.get? a = none)
    (ha : b.accounts.contains a = true) (o : Owner) :
    b.acquire o a = (.granted, { b with locks := b.locks.insert a ⟨o, []⟩ }) := by
  unfold acquire
  rw [hl]
  exact if_pos ha

/-- There is nothing to take out of a bank of an owner that has nothing in flight. -/
theorem Sound.without_eq (h : b.Sound awaits) (ho : ¬ b.IsOpen o) (ha : awaits o = none) :
    b.without o = b := by
  have haccounts : (b.accounts.collect fun a r => some (r.without (b.work o) a)) = b.accounts := by
    rw [work_of_not_isOpen ho]
    exact Table.collect_eq_self fun _ => by rw [Row.without_empty]
  have hlocks : (b.locks.collect fun _ l => l.without o) = b.locks := by
    refine Table.collect_eq_self fun {a l} hl => ?_
    obtain ⟨hholder, hwaiting⟩ := h.not_locking ho ha hl
    rw [Lock.without, if_neg hholder]
    unfold Lock.leave
    rw [List.filter_eq_self.2 fun p hp => by simpa using fun e : p = o => hwaiting (e ▸ hp)]
  unfold Bank.without
  rw [haccounts, hlocks, filter_works_of_not_isOpen ho]

/-- **An owner that has nothing in flight any more** has left nothing behind but used numbers. -/
theorem Within.eq_without (h : b.Within o b') (hb' : b'.Sound awaits) (ho : ¬ b'.IsOpen o)
    (ha : awaits o = none) : b' =
      { b.without o with nextEntry := b'.nextEntry, nextTransfer := b'.nextTransfer } := by
  rw [← h.without, hb'.without_eq ho ha]

/-! ## Readers -/

end Bank

/-- What a query answers by a ledger. -/
def Ledger.answer (l : Ledger) : Query → Value
  | .account id => .optionalAccount (l.accounts.get? id)
  | .accounts page => .accounts (page.slice l.accounts.toList)
  | .entry id => .optionalEntry (l.entries.get? id)
  | .entries account page =>
      .entries (page.slice (l.entries.toList.filter fun e => e.account = account))
  | .transfer id => .optionalTransfer (l.transfers.get? id)
  | .transfers source target page => .transfers
      (page.slice (l.transfers.toList.filter fun t => t.source = source || t.target = target))

namespace Bank

variable {b b' : Bank}

theorem allAccounts_eq (b : Bank) : b.allAccounts = b.ledger.accounts.toList := by
  unfold allAccounts ledger Table.toList Table.collect
  simp

/-- **Readers see the ledger** and nothing else. -/
theorem answer_eq (b : Bank) (q : Query) : b.answer q = b.ledger.answer q := by
  cases q with
  | account id =>
      unfold answer Ledger.answer
      dsimp only
      rw [getAccount_eq]
  | accounts page =>
      unfold answer Ledger.answer listAccounts
      dsimp only
      rw [allAccounts_eq]
  | _ => rfl

theorem answer_of_ledger (h : b'.ledger = b.ledger) (q : Query) : b'.answer q = b.answer q := by
  rw [answer_eq, answer_eq, h]

end Bank

end DoubleEntry
