import DoubleEntry.Proofs.Repetition
set_option autoImplicit false

/-! # Receipts and what is committed

The receipt of a transfer shows two accounts, each as the adjustment for its side has left it. If
the accounts are different, these are the committed ones. A transfer from an account to itself
adjusts one row twice, the credit first, so that its receipt shows as target an account that is
never committed unless the amount is zero (`Receipt.Shows`).
-/

namespace DoubleEntry

/-! ## Transfers that are recorded -/

/-- A transfer that has been recorded and has not failed since. -/
def Stage.Recorded : Stage → Prop
  | .beginning | .recording | .rollingBack _ => False
  | _ => True

/-- Only a transfer whose amount has an opposite goes on once it is recorded. -/
theorem Stage.resume_recorded {n : NewTransfer} {s s' : Stage}
    {answer : Except LedgerError (s.call n).Answer} (h : s.resume n answer = .inl s')
    (hs : s'.Recorded) : s.Recorded ∨ n.amount ≠ Amount.least := by
  cases s with
  | beginning => cases answer <;> cases h; exact hs.elim
  | recording =>
      refine .inr fun e => ?_
      cases answer with
      | ok t =>
          have hnone : Amount.negate? n.amount = none := Amount.negate?_eq_none_iff.2 e
          simp [resume, hnone] at h
      | error e => cases h; exact hs.elim
  | rollingBack cause => cases answer <;> cases h
  | _ => exact .inl trivial

theorem Hall.Underway.recorded {nonNegative : Bool} {o : Owner} {n : NewTransfer} {h : Hall}
    {xs : List Exchange} {p : Stage ⊕ Outcome} (hu : Underway nonNegative o n h xs p) {s : Stage}
    (hp : p = .inl s) (hs : s.Recorded) : n.amount ≠ Amount.least := by
  induction hu generalizing s with
  | start ms closed idle =>
      obtain rfl := Sum.inl.inj hp
      exact hs.elim
  | meanwhile m others before ih => exact ih hp hs
  | waits before silent ih => exact ih hp hs
  | answered before answers ih =>
      exact (Stage.resume_recorded hp hs).elim (ih rfl) id

/-! ## The accounts of a receipt -/

namespace Receipt

variable {n : NewTransfer} {r : Receipt} {l : Ledger} {nonNegative : Bool}

/-- The source of a receipt is what the last adjustment of its row has left. -/
theorem get?_source (n : NewTransfer) (r : Receipt) (l : Ledger) :
    (l.enactAll (r.deeds n)).accounts.get? n.source = some r.source := by
  unfold deeds NewTransfer.adjustments
  by_cases h : n.source < n.target
  · rw [if_pos h]
    have hne : n.source ≠ n.target := h.ne
    simp [NewTransfer.debit, NewTransfer.credit, Ledger.enact, account, hne]
  · rw [if_neg h]
    simp [NewTransfer.debit, NewTransfer.credit, Ledger.enact, account]

/-- So is the target, if it is another account. -/
theorem get?_target (hne : n.source ≠ n.target) (r : Receipt) (l : Ledger) :
    (l.enactAll (r.deeds n)).accounts.get? n.target = some r.target := by
  unfold deeds NewTransfer.adjustments
  by_cases h : n.source < n.target
  · rw [if_pos h]
    simp [NewTransfer.debit, NewTransfer.credit, Ledger.enact, account]
  · rw [if_neg h]
    simp [NewTransfer.debit, NewTransfer.credit, Ledger.enact, account, hne.symm]

/-- A transfer from an account to itself debits the account that it has credited before. -/
theorem debited_after_credit (h : l.AdmitsAll nonNegative (r.deeds n))
    (hsame : n.source = n.target) : r.target = r.source.plus n.amount := by
  unfold deeds NewTransfer.adjustments at h
  rw [if_neg (by rw [hsame]; exact lt_irrefl _)] at h
  obtain ⟨-, -, -, -, ⟨x, hx, hsource, -⟩, -⟩ := h
  replace hx : (l.accounts.insert n.target r.target).get? n.source = some x := hx
  rw [hsame, Table.get?_insert, if_pos rfl] at hx
  obtain rfl := Option.some.inj hx
  replace hsource : r.source = r.target.plus (-n.amount) := hsource
  rw [hsource, Account.plus_plus, neg_add_cancel, Account.plus_zero]

/-- **What a receipt shows** of a bank in which its transfer has just been committed: the source
as it is, and the target as it is unless money went from an account to itself. Then the target is
shown with the amount on it that the source has paid in the end. -/
structure Shows (n : NewTransfer) (r : Receipt) (b : Bank) : Prop where
  source : b.getAccount n.source = some r.source
  target : b.getAccount n.target = some r.target ↔ n.source ≠ n.target ∨ n.amount = 0
  credited : n.source = n.target → r.target = r.source.plus n.amount

theorem Shows.of_commit {b : Bank} (h : l.AdmitsAll nonNegative (r.deeds n))
    (hb : b.ledger = l.enactAll (r.deeds n)) : Shows n r b := by
  refine ⟨?_, ?_, debited_after_credit h⟩
  · rw [b.getAccount_eq, hb, get?_source]
  · by_cases hsame : n.source = n.target
    · -- The row is committed as the debit has left it, and shown as the credit has.
      have hcredited := debited_after_credit h hsame
      rw [b.getAccount_eq, hb, ← hsame, get?_source, Option.some.injEq]
      constructor
      · intro heq
        rw [hcredited] at heq
        have hbalance : r.source.balance = r.source.balance + n.amount :=
          congrArg Account.balance heq
        exact .inr (by omega)
      · intro hcase
        have hzero : n.amount = 0 := hcase.resolve_left (by simp)
        rw [hcredited, hzero, Account.plus_zero]
    · rw [b.getAccount_eq, hb, get?_target hsame]
      simp [hsame]

end Receipt

/-- **A receipt shows the accounts that its transfer has committed,** at its commit and before
anything else happens, unless it shows a transfer from an account to itself: call by call, and at
every desk, at once or after any wait. -/
theorem Receipt.shows_committed (nonNegative : Bool) {n : NewTransfer} {r : Receipt} :
    (∀ {h m}, Hall.Completes nonNegative n h m r → Shows n r (h.after m).bank) ∧
    ∀ {d e}, d.Reachable nonNegative → Desk.Completes n d e r → Shows n r (d.after e).bank := by
  constructor
  · intro h m hm
    have representable : n.amount ≠ Amount.least := by
      obtain ⟨o, xs, -, hu⟩ := hm
      exact hu.recorded rfl trivial
    obtain ⟨hadmits, hledger⟩ := hm.commits representable
    exact .of_commit hadmits hledger
  · intro d e hd he
    obtain ⟨hadmits, hledger⟩ := hd.sound.commits he
    exact .of_commit hadmits hledger

/-- A transfer to an account with a lower number, which waits for the row of that account. -/
theorem Receipt.shows_committed_after_wait :
    let d := (Desk.opening true).afterAll [.command (.createAccount ⟨"a", 100, .usd⟩),
      .command (.createAccount ⟨"b", 50, .usd⟩), .command (.begin "u"),
      .command (.onUnit "u" (.addBalance 1 7)), .command (.transfer ⟨2, 1, 30⟩ []),
      .command (.onUnit "u" .commit)]
    let n : NewTransfer := ⟨2, 1, 30⟩
    let r : Receipt := ⟨⟨1, 2, 1, 30, .epoch⟩, ⟨2, "b", 20, "USD", .epoch⟩,
      ⟨1, "a", 137, "USD", .epoch⟩, ⟨1, 2, -30, .epoch⟩, ⟨2, 1, 30, .epoch⟩⟩
    (d.Reachable true ∧ Desk.Completes n d (.poll 4) r) ∧ Shows n r (d.after (.poll 4)).bank := by
  intro d n r
  have hd : d.Reachable true := Desk.Reachable.opening.afterAll _
  have hr : Desk.Completes n d (.poll 4) r := ⟨by decide +kernel, n.plan, by decide +kernel⟩
  exact ⟨⟨hd, hr⟩, (shows_committed true).2 hd hr⟩

/-- **A transfer from an account to itself shows a balance that is never committed:** the account
has 100 before and after, and 105 on it in the receipt. -/
theorem Receipt.self_transfer_shows_draft :
    let d := (Desk.opening true).afterAll [.command (.createAccount ⟨"a", 100, .usd⟩)]
    let n : NewTransfer := ⟨1, 1, 5⟩
    let a : Account := ⟨1, "a", 100, "USD", .epoch⟩
    let r : Receipt := ⟨⟨1, 1, 1, 5, .epoch⟩, a, a.plus 5, ⟨1, 1, -5, .epoch⟩, ⟨2, 1, 5, .epoch⟩⟩
    d.Reachable true ∧ Desk.Completes n d (.command (.transfer n [])) r ∧
      (d.after (.command (.transfer n []))).bank.getAccount n.source = some r.source ∧
      (d.after (.command (.transfer n []))).bank.getAccount n.target ≠ some r.target := by
  intro d n a r
  have hr : Desk.Completes n d (.command (.transfer n [])) r :=
    ⟨by decide +kernel, n.plan, by decide +kernel⟩
  exact ⟨Desk.Reachable.opening.afterAll _, hr, by decide +kernel, by decide +kernel⟩

end DoubleEntry
