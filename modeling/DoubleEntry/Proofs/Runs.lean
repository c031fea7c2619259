import DoubleEntry.Proofs.Ledger
import DoubleEntry.Transfer.Prompt
set_option autoImplicit false

/-! # Transfers under way

What holds of a transfer from call to call holds where it waits or ends (`Store.run_satisfies`), and
what a transfer has done so far in its unit of work can be read off its stage (`Stage.deeds?`).
-/

namespace DoubleEntry

namespace Store

variable {σ : Type} {store : Store σ} {P W : Run → σ → Prop} {E : Outcome → σ → Prop}

/-- Where the answer to a call leads: a transfer goes on with `P`, waits with `W` or ends with
`E`. -/
def Leads (P W : Run → σ → Prop) (E : Outcome → σ → Prop) (r : Run) :
    Option (Except LedgerError r.call.Answer) × σ → Prop
  | (none, s) => W r s
  | (some a, s) =>
      match r.stage.resume r.request a with
      | .inl stage => P { r with stage, answered := r.made } s
      | .inr outcome => E outcome s

/-- Where a transfer stands after some calls: it waits with `W` or has ended with `E`. -/
def Satisfies (W : Run → σ → Prop) (E : Outcome → σ → Prop) : Advance × σ → Prop
  | (.waiting r, s) => W r s
  | (.ended outcome _, s) => E outcome s

theorem runFor_satisfies (hstep : ∀ r s, P r s → Leads P W E r (store.answer r s)) (fuel : Nat)
    {r : Run} {s : σ} (enough : r.stage.remaining ≤ fuel) (h : P r s) :
    Satisfies W E (store.runFor fuel r s) := by
  -- Each call that is answered takes a stage, so the fuel outlasts the transfer.
  induction fuel generalizing r s with
  | zero => exact absurd enough (Nat.not_le.2 (remaining_pos _))
  | succ fuel ih =>
      have hlead := hstep r s h
      unfold runFor
      split
      · rename_i s' heq
        rw [heq] at hlead
        exact hlead
      · rename_i a s' heq
        rw [heq] at hlead
        unfold Leads at hlead
        dsimp only at hlead
        split
        · rename_i stage hs
          rw [hs] at hlead
          have hless := Stage.remaining_resume hs
          exact ih (by dsimp only; omega) hlead
        · rename_i outcome hs
          rw [hs] at hlead
          exact hlead

/-- **What holds from call to call holds where a transfer waits or ends.** -/
theorem run_satisfies (hstep : ∀ r s, P r s → Leads P W E r (store.answer r s)) {r : Run} {s : σ}
    (h : P r s) : Satisfies W E (store.run r s) :=
  runFor_satisfies hstep _ le_rfl h

/-- A call is made, or a fault is put in its place. -/
theorem answer_cases (store : Store σ) (r : Run) (s : σ) :
    (∃ e, faultOf? r.faults r.answered r.call = some e ∧
      store.answer r s = (some (.error e), store.refuse r.call s)) ∨
    (faultOf? r.faults r.answered r.call = none ∧
      store.answer r s = store.perform r.call s) := by
  unfold answer
  cases faultOf? r.faults r.answered r.call with
  | none => exact .inr ⟨rfl, rfl⟩
  | some e => exact .inl ⟨e, rfl, rfl⟩

end Store

/-! ## What a transfer has done -/

/-- The account of a side. -/
def Receipt.account (r : Receipt) : Side → Account
  | .source => r.source
  | .target => r.target

/-- What a transfer that was carried out did in its unit of work. -/
def Receipt.deeds (n : NewTransfer) (r : Receipt) : List Deed :=
  [.transfer r.transfer, .entry r.debit, .entry r.credit,
    .adjustment n.adjustments.1.account n.adjustments.1.delta (r.account n.adjustments.1.side),
    .adjustment n.adjustments.2.account n.adjustments.2.delta (r.account n.adjustments.2.side)]

namespace Stage

variable {n : NewTransfer} {t : Transfer} {debit credit : Entry} {first second : Account}

/-- What a transfer has done so far, unless it has not begun or is being given up. -/
def deeds? (n : NewTransfer) : Stage → Option (List Deed)
  | .beginning => none
  | .recording => some []
  | .debiting t => some [.transfer t]
  | .crediting t debit => some [.transfer t, .entry debit]
  | .adjustingFirst t debit credit => some [.transfer t, .entry debit, .entry credit]
  | .adjustingSecond t debit credit first => some [.transfer t, .entry debit, .entry credit,
      .adjustment n.adjustments.1.account n.adjustments.1.delta first]
  | .committing r => some (r.deeds n)
  | .rollingBack _ => none

/-- The rows that a transfer has locked before its last adjustment. -/
def locked? (n : NewTransfer) : Stage → Option (List Int)
  | .adjustingSecond _ _ _ _ => some [n.adjustments.1.account]
  | .committing _ | .rollingBack _ => none
  | _ => some []

/-- The account whose row a transfer asks for next. -/
def awaits? (n : NewTransfer) : Stage → Option Int
  | .adjustingFirst _ _ _ => some n.adjustments.1.account
  | .adjustingSecond _ _ _ _ => some n.adjustments.2.account
  | _ => none

theorem deeds_receipt (n : NewTransfer) (t : Transfer) (debit credit : Entry)
    (first second : Account) : (receipt n t debit credit first second).deeds n =
      [.transfer t, .entry debit, .entry credit,
        .adjustment n.adjustments.1.account n.adjustments.1.delta first,
        .adjustment n.adjustments.2.account n.adjustments.2.delta second] := by
  unfold receipt Receipt.deeds NewTransfer.adjustments
  by_cases h : n.source < n.target
  · simp [h, NewTransfer.debit, NewTransfer.credit, Receipt.account]
  · simp [h, NewTransfer.debit, NewTransfer.credit, Receipt.account]

end Stage

/-! ## What a transfer records is what was asked for -/

/-- A recorded transfer is the one that was asked for. -/
def Transfer.Fits (n : NewTransfer) (t : Transfer) : Prop :=
  t.source = n.source ∧ t.target = n.target ∧ t.amount = n.amount

/-- The debit of a transfer that was asked for. -/
def Entry.FitsDebit (n : NewTransfer) (e : Entry) : Prop :=
  e.account = n.source ∧ e.amount = -n.amount

/-- The credit of a transfer that was asked for. -/
def Entry.FitsCredit (n : NewTransfer) (e : Entry) : Prop :=
  e.account = n.target ∧ e.amount = n.amount

/-- A receipt is for the transfer that was asked for. -/
def Receipt.Fits (n : NewTransfer) (r : Receipt) : Prop :=
  r.transfer.Fits n ∧ r.debit.FitsDebit n ∧ r.credit.FitsCredit n

/-- What a transfer has recorded so far is what was asked for. -/
def Stage.Fits (n : NewTransfer) : Stage → Prop
  | .beginning | .recording | .rollingBack _ => True
  | .debiting t => t.Fits n
  | .crediting t debit => t.Fits n ∧ debit.FitsDebit n
  | .adjustingFirst t debit credit => t.Fits n ∧ debit.FitsDebit n ∧ credit.FitsCredit n
  | .adjustingSecond t debit credit _ => t.Fits n ∧ debit.FitsDebit n ∧ credit.FitsCredit n
  | .committing r => r.Fits n

theorem Stage.fits_receipt {n : NewTransfer} {t : Transfer} {debit credit : Entry}
    (h : t.Fits n ∧ debit.FitsDebit n ∧ credit.FitsCredit n) (first second : Account) :
    (receipt n t debit credit first second).Fits n := by
  unfold receipt
  cases n.adjustments.1.side <;> exact h

end DoubleEntry
