import DoubleEntry.Bank.Account
import DoubleEntry.Proofs.Effects
import DoubleEntry.Proofs.Ending
set_option autoImplicit false

/-! # Opening, changing and deleting accounts

Single statements take effect at once or not at all. Changing and deleting an account wait for the
lock of its row, hold it only while they take effect, and leave what others have in flight alone.
-/

namespace DoubleEntry.Bank

open Function (update update_self update_of_ne)

variable {b : Bank} {o : Owner} {awaits : Owner → Option Int} {a : Int} {r : Row}

/-! ## Opening an account -/

theorem createAccount_cases (b : Bank) (n : NewAccount) :
    (b.nonNegative = true ∧ n.balance < 0 ∧ b.createAccount n =
      (.error (.constraintViolation (.negativeBalance b.nextAccount n.balance)),
        { b with nextAccount := b.nextAccount + 1 })) ∨
    ((b.nonNegative = true → 0 ≤ n.balance) ∧ ∃ account : Account,
      account = ⟨b.nextAccount, n.owner, n.balance, n.currency.code, b.clock⟩ ∧
      b.createAccount n = (.ok account,
        { b with
          nextAccount := b.nextAccount + 1
          accounts := b.accounts.insert b.nextAccount ⟨account, account, 0⟩ })) := by
  unfold createAccount
  dsimp only
  rcases checkBalance_cases { b with nextAccount := b.nextAccount + 1 } b.nextAccount n.balance with
    ⟨hb, hneg, heq⟩ | ⟨hb, heq⟩
  · refine .inl ⟨hb, hneg, ?_⟩
    rw [heq]
  · refine .inr ⟨hb, _, rfl, ?_⟩
    rw [heq]

/-- **Opening an account** under a number that no account has. -/
theorem Sound.createAccount (h : b.Sound awaits) (hfresh : b.accounts.get? b.nextAccount = none)
    (n : NewAccount) : (b.createAccount n).2.Sound awaits ∧ (∀ p, b.Keeps p (b.createAccount n).2) ∧
      (b.createAccount n).2.ledger =
        b.ledger.applyAll (Effect.ofOpening n (b.createAccount n).1) ∧
      b.ledger.AllowsAll b.nonNegative (Effect.ofOpening n (b.createAccount n).1) := by
  rcases createAccount_cases b n with ⟨-, -, heq⟩ | ⟨hb, account, haccount, heq⟩
  · rw [heq]
    exact ⟨h.with_numbers b.clock (b.nextAccount + 1) b.nextEntry b.nextTransfer,
      fun p => .of_work? rfl rfl fun _ _ => rfl, rfl, trivial⟩
  · rw [heq]
    have hid : account.id = b.nextAccount := by rw [haccount]
    have hinsert : ({ b with
        accounts := b.accounts.insert b.nextAccount ⟨account, account, 0⟩ } : Bank).Sound awaits :=
      ⟨h.locking, h.settled.insert hfresh hid 0, h.anchored.insert hfresh account⟩
    refine ⟨hinsert.with_numbers b.clock (b.nextAccount + 1) b.nextEntry b.nextTransfer,
      fun p => ?_, ?_, Ledger.allowsAll_singleton.2 ⟨?_, ?_, hb⟩⟩
    · refine .of_work? rfl rfl fun k hk => ?_
      -- A row that somebody has locked exists, so it is not the new one.
      obtain ⟨g, hg, rfl⟩ := List.mem_map.1 hk
      obtain ⟨r, hr, -⟩ := h.settled.prior hg
      have hne : g.account ≠ b.nextAccount := fun e => by simp [e, hfresh] at hr
      rw [Table.get?_insert, if_neg hne]
    · refine Ledger.ext (Table.ext fun k => ?_) rfl rfl
      rw [get?_ledger]
      show ((b.accounts.insert b.nextAccount ⟨account, account, 0⟩).get? k).map _ =
        (b.ledger.accounts.insert account.id account).get? k
      rw [Table.get?_insert, Table.get?_insert, get?_ledger, hid]
      by_cases hk : k = b.nextAccount <;> simp [hk]
    · rw [get?_ledger, hid, hfresh]
      rfl
    · rw [haccount]

/-! ## Statements that need the lock of a row -/

/-- Giving back a lock that was given, after the row was changed or deleted. -/
theorem release_with (b : Bank) (locks : Table Lock) (accounts : Table Row) (a : Int) :
    ({ b with locks, accounts } : Bank).release a = { b with
      accounts
      locks := locks.collect fun k l => if k = a then l.next? else some l } :=
  release_eq _ a

/-- **Setting a balance, answer by answer.** -/
theorem Sound.updateAccount_cases (h : b.Sound awaits) (ho : b.heldBy o = [])
    (ha : awaits o = none ∨ awaits o = some a) (balance : Int) : ∃ locks,
    (b.updateAccount o a balance = (none, { b with locks }) ∧ b.Within o { b with locks } ∧
      ({ b with locks } : Bank).Sound (update awaits o (some a)) ∧
      ∃ l, locks.get? a = some l ∧ o ∈ l.waiting) ∨
    (∃ answer, b.updateAccount o a balance = (some answer, { b with locks }) ∧
      (answer = .ok none ∧ b.accounts.contains a = false ∨
        (∃ e, answer = .error e) ∧ b.nonNegative = true ∧ balance < 0) ∧
      b.Within o { b with locks } ∧ ({ b with locks } : Bank).Sound (update awaits o none)) ∨
    ∃ r, b.accounts.get? a = some r ∧ (∀ p, a ∉ b.heldBy p) ∧
      (b.nonNegative = true → 0 ≤ balance) ∧
      b.updateAccount o a balance = (some (.ok (some { r.committed with balance })),
        { b with
          accounts := b.accounts.modify a (Row.set { r.committed with balance })
          locks }) ∧
      ({ b with
        accounts := b.accounts.modify a (Row.set { r.committed with balance })
        locks } : Bank).Sound (update awaits o none) := by
  have hn : a ∉ b.heldBy o := by simp [ho]
  obtain ⟨locks, hwithin, hcase⟩ := h.acquire_answers ha hn
  unfold Bank.updateAccount
  rcases hcase with ⟨heq, hmissing, hsound⟩ | ⟨heq, hsound, hwaits⟩ |
    ⟨heq, hsound, ⟨l, hl, hh⟩, hfree, r, hr, hclean⟩
  · rw [heq]
    exact ⟨locks, .inr (.inl ⟨_, rfl, .inl ⟨rfl, hmissing⟩, hwithin, hsound⟩)⟩
  · rw [heq]
    exact ⟨locks, .inl ⟨rfl, hwithin, hsound, hwaits⟩⟩
  · rw [heq]
    dsimp only
    have hr' : ({ b with locks } : Bank).accounts.get? a = some r := hr
    have hl' : ({ b with locks } : Bank).locks.get? a = some l := hl
    refine ⟨locks.collect fun k m => if k = a then m.next? else some m, ?_⟩
    rcases checkBalance_cases { b with locks } a balance with ⟨hb, hneg, hcheck⟩ | ⟨hb, hcheck⟩
    · have hrelease := hsound.release (update_self _ _ _) hl' hh
      have hw := hwithin.trans (hsound.within_release hl' hh)
      rw [Function.update_idem, release_eq] at hrelease
      rw [release_eq] at hw
      rw [hcheck, hr', release_eq]
      exact .inr (.inl ⟨_, rfl, .inr ⟨⟨_, rfl⟩, hb, hneg⟩, hw, hrelease⟩)
    · -- Nobody else has locked the row, so both versions of it can be set.
      have hset : ({ b with
          locks
          accounts := b.accounts.modify a (Row.set { r.committed with balance }) } : Bank).Sound
            (update awaits o (some a)) := by
        rw [← hclean]
        exact ⟨hsound.locking, hsound.settled.set hr hfree balance,
          hsound.anchored.modifyRow fun _ => rfl⟩
      have hrelease := hset.release (update_self _ _ _) hl hh
      rw [Function.update_idem, release_with] at hrelease
      rw [hcheck, hr']
      dsimp only
      rw [hclean]
      exact .inr (.inr ⟨r, rfl, hfree, hb, congrArg (Prod.mk _) (release_with b locks _ a),
        hrelease⟩)

/-- **Deleting an account, answer by answer.** -/
theorem Sound.deleteAccount_cases (h : b.Sound awaits) (ho : b.heldBy o = [])
    (ha : awaits o = none ∨ awaits o = some a) : ∃ locks,
    (b.deleteAccount o a = (none, { b with locks }) ∧ b.Within o { b with locks } ∧
      ({ b with locks } : Bank).Sound (update awaits o (some a)) ∧
      ∃ l, locks.get? a = some l ∧ o ∈ l.waiting) ∨
    (∃ answer, b.deleteAccount o a = (some answer, { b with locks }) ∧
      (answer = .ok false ∧ b.accounts.contains a = false ∨
        (∃ e, answer = .error e) ∧ (b.ledger.Refers a ∨ a ∈ b.pinned)) ∧
      b.Within o { b with locks } ∧ ({ b with locks } : Bank).Sound (update awaits o none)) ∨
    (b.accounts.contains a = true ∧ (∀ p, a ∉ b.heldBy p) ∧ ¬ b.ledger.Refers a ∧
      b.deleteAccount o a = (some (.ok true), { b with accounts := b.accounts.erase a, locks }) ∧
      ({ b with accounts := b.accounts.erase a, locks } : Bank).Sound (update awaits o none)) := by
  have hn : a ∉ b.heldBy o := by simp [ho]
  obtain ⟨locks, hwithin, hcase⟩ := h.acquire_answers ha hn
  unfold Bank.deleteAccount
  rcases hcase with ⟨heq, hmissing, hsound⟩ | ⟨heq, hsound, hwaits⟩ |
    ⟨heq, hsound, ⟨l, hl, hh⟩, hfree, r, hr, -⟩
  · rw [heq]
    exact ⟨locks, .inr (.inl ⟨_, rfl, .inl ⟨rfl, hmissing⟩, hwithin, hsound⟩)⟩
  · rw [heq]
    exact ⟨locks, .inl ⟨rfl, hwithin, hsound, hwaits⟩⟩
  · rw [heq]
    dsimp only
    have hr' : ({ b with locks } : Bank).accounts.get? a = some r := hr
    have hl' : ({ b with locks } : Bank).locks.get? a = some l := hl
    have hrefers : ({ b with locks } : Bank).isReferenced a = true ↔ b.ledger.Refers a :=
      isReferenced_iff
    refine ⟨locks.collect fun k m => if k = a then m.next? else some m, ?_⟩
    -- An account stays if a row names it, committed or staged; staged ones have pinned it.
    by_cases hnamed : ({ b with locks } : Bank).isReferenced a = true ∨ 0 < r.pins
    · have hrelease := hsound.release (update_self _ _ _) hl' hh
      have hw := hwithin.trans (hsound.within_release hl' hh)
      rw [Function.update_idem, release_eq] at hrelease
      rw [release_eq] at hw
      rw [hr', release_eq]
      refine .inr (.inl ⟨_, if_pos hnamed, .inr ⟨⟨_, rfl⟩, ?_⟩, hw, hrelease⟩)
      refine hnamed.imp hrefers.1 fun hpins => ?_
      rw [h.anchored.pins hr] at hpins
      exact List.count_pos_iff.1 hpins
    · obtain ⟨hfreed, hpins⟩ := not_or.1 hnamed
      have herase : ({ b with locks, accounts := b.accounts.erase a } : Bank).Sound
          (update awaits o (some a)) :=
        ⟨hsound.locking, hsound.settled.erase hfree,
          hsound.anchored.erase hr' (Nat.eq_zero_of_not_pos hpins) hfreed⟩
      have hrelease := herase.release (update_self _ _ _) hl hh
      rw [Function.update_idem, release_with] at hrelease
      rw [hr']
      dsimp only
      rw [if_neg hnamed]
      exact .inr (.inr ⟨Table.contains_iff.2 ⟨r, hr⟩, hfree, fun hr => hfreed (hrefers.2 hr),
        congrArg (Prod.mk _) (release_with b locks _ a), hrelease⟩)

/-! ## What the others and the readers see -/

/-- A row that nobody has locked can be changed. -/
theorem keeps_of_free (hfree : ∀ p, a ∉ b.heldBy p) {accounts : Table Row}
    (hsame : ∀ k, k ≠ a → accounts.get? k = b.accounts.get? k) (locks : Table Lock) (p : Owner) :
    b.Keeps p { b with accounts, locks } := by
  refine .of_work? rfl rfl fun k hk => ?_
  have hne : k ≠ a := fun e => hfree p (e ▸ hk)
  exact congrArg _ (hsame k hne)

theorem ledger_set (hr : b.accounts.get? a = some r) (account : Account) (locks : Table Lock) :
    ({ b with accounts := b.accounts.modify a (Row.set account), locks } : Bank).ledger =
      { b.ledger with accounts := b.ledger.accounts.insert a account } := by
  refine Ledger.ext (Table.ext fun k => ?_) rfl rfl
  show _ = (b.ledger.accounts.insert a account).get? k
  rw [get?_ledger, Table.get?_insert, get?_ledger, Table.get?_modify]
  by_cases hk : k = a
  · rw [if_pos hk, if_pos hk, hk, hr]
    rfl
  · rw [if_neg hk, if_neg hk]

theorem ledger_erase (b : Bank) (a : Int) (locks : Table Lock) :
    ({ b with accounts := b.accounts.erase a, locks } : Bank).ledger =
      { b.ledger with accounts := b.ledger.accounts.erase a } := by
  refine Ledger.ext (Table.ext fun k => ?_) rfl rfl
  show _ = (b.ledger.accounts.erase a).get? k
  rw [get?_ledger, Table.get?_erase, Table.get?_erase, get?_ledger]
  by_cases hk : k = a <;> simp [hk]

end DoubleEntry.Bank
