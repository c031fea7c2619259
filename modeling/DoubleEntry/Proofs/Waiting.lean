import DoubleEntry.Proofs.Interleaving
set_option autoImplicit false

/-! # What waiting leaves alone

A call that goes on waiting gives no lock away (`Bank.HoldsOn`) and has not got the one that it
awaits (`Bank.Waiting`): this holds of single statements and of transfers, however far they have
come before they wait (`Bank.waiting_proceed`). Conversely a call waits on as long as it is in the
queue for its row (`Bank.proceed_of_queued`).
-/

namespace DoubleEntry

namespace Bank

variable {b b' b'' : Bank} {o p : Owner} {a delta : Int} {awaits : Owner → Option Int}

/-- An owner has the lock of a row, whether it has found out already or not. -/
def Served (b : Bank) (o : Owner) (a : Int) : Prop :=
  ∃ l, b.locks.get? a = some l ∧ l.holder = o

/-- An owner gives no lock away. -/
def HoldsOn (o : Owner) (b b' : Bank) : Prop := ∀ a, b.Served o a → b'.Served o a

theorem HoldsOn.refl (o : Owner) (b : Bank) : b.HoldsOn o b := fun _ hs => hs

theorem HoldsOn.trans (h : b.HoldsOn o b') (h' : b'.HoldsOn o b'') : b.HoldsOn o b'' :=
  fun a hs => h' a (h a hs)

theorem HoldsOn.of_locks (h : b'.locks = b.locks) : b.HoldsOn o b' := fun _ ⟨l, hl, hh⟩ =>
  ⟨l, h ▸ hl, hh⟩

/-- **Nobody else is given a lock** by an owner that gives none away. -/
theorem Within.served (h : b.Within o b') (hr : b.HoldsOn o b') (hp : p ≠ o)
    (hs : b'.Served p a) : b.Served p a := by
  obtain ⟨l', hl', rfl⟩ := hs
  have hsame := h.locks a
  rw [hl', Option.bind_some, show Lock.without o l' = some (l'.leave o) from if_neg hp] at hsame
  cases hl : b.locks.get? a with
  | none => rw [hl] at hsame; cases hsame
  | some l =>
      rw [hl, Option.bind_some] at hsame
      by_cases hh : l.holder = o
      · -- Then the owner would have it still.
        obtain ⟨m, hm, hmo⟩ := hr a ⟨l, hl, hh⟩
        obtain rfl := Option.some.inj (hl'.symm.trans hm)
        exact absurd hmo hp
      · rw [show Lock.without o l = some (l.leave o) from if_neg hh] at hsame
        exact ⟨l, hl, (congrArg Lock.holder (Option.some.inj hsame)).symm⟩

/-! ## Calls that wait -/

/-- An owner that is in the queue for a row goes on waiting. -/
theorem acquire_of_queued {l : Lock} (hl : b.locks.get? a = some l) (hh : l.holder ≠ o)
    (hw : o ∈ l.waiting) : b.acquire o a = (.waiting, b) := by
  unfold acquire
  rw [hl]
  dsimp only
  rw [if_neg hh, if_pos hw]

theorem holdsOn_acquire (h : (b.acquire o a).1 ≠ .missing) : b.HoldsOn o (b.acquire o a).2 := by
  rcases b.acquire_cases o a with ⟨hl, -, heq⟩ | ⟨-, -, heq⟩ | ⟨l, hl, ⟨-, -, heq⟩ | ⟨-, -, heq⟩ |
    ⟨-, -, heq⟩ | ⟨hh, -, -, heq⟩ | ⟨-, -, -, heq⟩⟩
  · rw [heq]
    rintro k ⟨m, hm, hmo⟩
    have hk : k ≠ a := fun e => by rw [e, hl] at hm; cases hm
    exact ⟨m, by rwa [Table.get?_insert, if_neg hk], hmo⟩
  · rw [heq] at h
    exact absurd rfl h
  · rw [heq]
    exact .refl o b
  · rw [heq] at h
    exact absurd rfl h
  · rw [heq]
    exact .refl o b
  · rw [heq]
    rintro k ⟨m, hm, hmo⟩
    have hk : k ≠ a := fun e => by
      rw [e, hl] at hm
      exact hh (Option.some.inj hm ▸ hmo)
    exact ⟨m, by rwa [Table.get?_insert, if_neg hk], hmo⟩
  · rw [heq] at h
    exact absurd rfl h

theorem not_served_acquire (h : (b.acquire o a).1 = .waiting) :
    ¬ (b.acquire o a).2.Served o a := by
  rcases b.acquire_cases o a with ⟨-, -, heq⟩ | ⟨-, -, heq⟩ | ⟨l, hl, ⟨-, -, heq⟩ | ⟨-, -, heq⟩ |
    ⟨hh, -, heq⟩ | ⟨hh, -, -, heq⟩ | ⟨-, -, -, heq⟩⟩
  · rw [heq] at h; cases h
  · rw [heq] at h; cases h
  · rw [heq] at h; cases h
  · rw [heq] at h; cases h
  · rw [heq]
    rintro ⟨m, hm, hmo⟩
    exact hh (Option.some.inj (hl.symm.trans hm) ▸ hmo)
  · rw [heq]
    rintro ⟨m, hm, hmo⟩
    rw [Table.get?_insert, if_pos rfl] at hm
    obtain rfl := Option.some.inj hm
    exact hh (by simpa using hmo)
  · rw [heq] at h; cases h

theorem locks_adjust (b : Bank) (a delta : Int) : (b.adjust a delta).2.locks = b.locks := by
  obtain ⟨accounts, heq, -⟩ := adjust_accounts b a delta
  rw [heq]

theorem locks_hold (b : Bank) (o : Owner) (a : Int) : (b.hold o a).locks = b.locks := by
  unfold hold
  cases b.accounts.get? a <;> rfl

/-- What waiting leaves: no lock is given away, and the awaited one is not there yet. -/
structure Waiting (o : Owner) (a : Int) (b b' : Bank) : Prop where
  holdsOn : b.HoldsOn o b'
  unserved : ¬ b'.Served o a

theorem waiting_acquire (h : (b.acquire o a).1 = .waiting) : b.Waiting o a (b.acquire o a).2 where
  holdsOn := holdsOn_acquire (by simp [h])
  unserved := not_served_acquire h

/-- A statement that has to wait has only asked for the lock. -/
theorem addBalance_of_waiting (h : (b.addBalance o a delta).1 = none) :
    (b.acquire o a).1 = .waiting ∧ b.addBalance o a delta = (none, (b.acquire o a).2) := by
  unfold addBalance at h ⊢
  by_cases hheld : (b.work o).holds a = true
  · rw [if_pos hheld] at h
    cases h
  · rw [if_neg hheld] at h ⊢
    generalize b.acquire o a = x at h ⊢
    obtain ⟨_ | _ | _, b'⟩ := x
    · cases h
    · exact ⟨rfl, rfl⟩
    · cases h

theorem updateAccount_of_waiting {balance : Int} (h : (b.updateAccount o a balance).1 = none) :
    (b.acquire o a).1 = .waiting ∧ b.updateAccount o a balance = (none, (b.acquire o a).2) := by
  unfold updateAccount at h ⊢
  generalize b.acquire o a = x at h ⊢
  obtain ⟨_ | _ | _, b'⟩ := x
  · dsimp only at h
    cases hc : b'.checkBalance a balance <;> cases hr : b'.accounts.get? a <;>
      rw [hc, hr] at h <;> cases h
  · exact ⟨rfl, rfl⟩
  · cases h

theorem deleteAccount_of_waiting (h : (b.deleteAccount o a).1 = none) :
    (b.acquire o a).1 = .waiting ∧ b.deleteAccount o a = (none, (b.acquire o a).2) := by
  unfold deleteAccount at h ⊢
  generalize b.acquire o a = x at h ⊢
  obtain ⟨_ | _ | _, b'⟩ := x
  · dsimp only at h
    cases hr : b'.accounts.get? a with
    | none => rw [hr] at h; cases h
    | some row =>
        rw [hr] at h
        dsimp only at h
        split at h <;> cases h
  · exact ⟨rfl, rfl⟩
  · cases h

theorem waiting_addBalance (h : (b.addBalance o a delta).1 = none) :
    b.Waiting o a (b.addBalance o a delta).2 := by
  obtain ⟨hwaiting, heq⟩ := addBalance_of_waiting h
  rw [heq]
  exact waiting_acquire hwaiting

theorem waiting_updateAccount {balance : Int} (h : (b.updateAccount o a balance).1 = none) :
    b.Waiting o a (b.updateAccount o a balance).2 := by
  obtain ⟨hwaiting, heq⟩ := updateAccount_of_waiting h
  rw [heq]
  exact waiting_acquire hwaiting

theorem waiting_deleteAccount (h : (b.deleteAccount o a).1 = none) :
    b.Waiting o a (b.deleteAccount o a).2 := by
  obtain ⟨hwaiting, heq⟩ := deleteAccount_of_waiting h
  rw [heq]
  exact waiting_acquire hwaiting

theorem holdsOn_addBalance {account : Account}
    (h : (b.addBalance o a delta).1 = some (.ok account)) :
    b.HoldsOn o (b.addBalance o a delta).2 := by
  have hkeeps := b.holdsOn_acquire (o := o) (a := a)
  unfold addBalance at h ⊢
  split
  · exact .of_locks (b.locks_adjust a delta)
  · rename_i hheld
    rw [if_neg hheld] at h
    generalize b.acquire o a = x at h hkeeps ⊢
    obtain ⟨_ | _ | _, b'⟩ := x
    · refine (hkeeps Grant.noConfusion).trans (.of_locks ?_)
      dsimp only
      rw [locks_adjust, locks_hold]
    · cases h
    · cases h

theorem waiting_perform {c : Call} (h : ((store o).perform c b).1 = none) :
    ∃ a, c.row? = some a ∧ b.Waiting o a ((store o).perform c b).2 := by
  cases c with
  | addBalance a delta => exact ⟨a, rfl, waiting_addBalance h⟩
  | _ => cases h

/-- A call that succeeds gives a lock away only if it ends the unit of work. -/
theorem holdsOn_perform {c : Call} {x : c.Answer}
    (h : ((store o).perform c b).1 = some (.ok x)) (hc : c ≠ .commit) (hr : c ≠ .rollback) :
    b.HoldsOn o ((store o).perform c b).2 := by
  cases c with
  | begin => exact .of_locks rfl
  | createTransfer n => exact .of_locks (b.locks_createTransfer o n)
  | createEntry n => exact .of_locks (b.locks_createEntry o n)
  | addBalance a delta => exact holdsOn_addBalance h
  | commit => exact absurd rfl hc
  | rollback => exact absurd rfl hr

end Bank

/-- A transfer goes on after a failed call in order to be rolled back. -/
theorem Stage.resume_error {n : NewTransfer} {s s' : Stage} {e : LedgerError}
    (h : s.resume n (.error e) = .inl s') : s' = .rollingBack e := by
  cases s with
  | beginning => cases h
  | committing receipt => cases h
  | rollingBack cause => cases h
  | _ => exact (Sum.inl.inj h).symm

/-- A transfer goes on after a call that succeeded unless that was its last. -/
theorem Stage.call_of_resume {n : NewTransfer} {s s' : Stage} {x : (s.call n).Answer}
    (h : s.resume n (.ok x) = .inl s') : s.call n ≠ .commit ∧ s.call n ≠ .rollback := by
  cases s with
  | committing receipt => cases h
  | rollingBack cause => cases h
  | _ => exact ⟨Call.noConfusion, Call.noConfusion⟩

namespace Bank

variable {b b' : Bank} {o : Owner} {a : Int}

/-- **A transfer that goes on waiting gives no lock away.** It does so only when it ends, and once
it is being rolled back it waits no more. -/
theorem waiting_run (b : Bank) (o : Owner) (r : Run) : Store.Satisfies
    (fun r' b' => ∃ a, r'.stage.awaits? r'.request = some a ∧ b.Waiting o a b') (fun _ _ => True)
    ((store o).run r b) := by
  refine Store.run_satisfies
    (P := fun r' b' => b.HoldsOn o b' ∨ ∃ cause, r'.stage = .rollingBack cause) (fun r' b' hr => ?_)
    (.inl (.refl o b))
  -- A call that fails leads to the rollback, or to the end of the transfer.
  have failed : ∀ e b'', Store.Leads (σ := Bank)
      (fun r' b' => b.HoldsOn o b' ∨ ∃ cause, r'.stage = .rollingBack cause)
      (fun r' b' => ∃ a, r'.stage.awaits? r'.request = some a ∧ b.Waiting o a b') (fun _ _ => True)
      r' (some (.error e), b'') := by
    intro e b''
    exact .of_resume (fun s hs => .inr ⟨e, Stage.resume_error hs⟩) fun _ _ => trivial
  rcases (store o).answer_cases r' b' with ⟨e, -, heq⟩ | ⟨-, heq⟩
  · rw [heq]
    exact failed e _
  · rw [heq]
    have hwaiting := waiting_perform (b := b') (o := o) (c := r'.call)
    have hkeeps := fun x => holdsOn_perform (b := b') (o := o) (c := r'.call) (x := x)
    generalize (store o).perform r'.call b' = x at hwaiting hkeeps
    obtain ⟨_ | e | answer, b''⟩ := x
    · obtain ⟨a, ha, hkept, hunserved⟩ := hwaiting rfl
      rcases hr with hr | ⟨cause, hr⟩
      · exact ⟨a, (Run.row?_call r').symm.trans ha, hr.trans hkept, hunserved⟩
      · rw [Run.row?_call, hr] at ha
        cases ha
    · exact failed e b''
    · refine .of_resume (fun s hs => ?_) fun _ _ => trivial
      obtain ⟨hcommit, hrollback⟩ := Stage.call_of_resume hs
      refine .inl ((hr.resolve_right fun ⟨cause, hr⟩ => ?_).trans
        (hkeeps answer rfl hcommit hrollback))
      exact hrollback (by rw [hr]; rfl)

/-- **A call that goes on waiting** gives no lock away and has not got the one that it awaits. -/
theorem waiting_proceed {n : Nat} {r : Request} (h : (r.proceed n b).1 = none) :
    ∃ a, (r.proceed n b).2.1.awaits? = some a ∧
      b.Waiting (r.owner n) a (r.proceed n b).2.2 := by
  cases r with
  | addBalance unit account delta =>
      simp only [Request.proceed, Option.map_eq_none_iff] at h
      exact ⟨account, rfl, waiting_addBalance h⟩
  | updateAccount account balance =>
      simp only [Request.proceed, Option.map_eq_none_iff] at h
      exact ⟨account, rfl, waiting_updateAccount h⟩
  | deleteAccount account =>
      simp only [Request.proceed, Option.map_eq_none_iff] at h
      exact ⟨account, rfl, waiting_deleteAccount h⟩
  | transfer run =>
      have hrun := b.waiting_run (.call n) run
      unfold Request.proceed at h ⊢
      dsimp only at h ⊢
      generalize (store (.call n)).run run b = x at h hrun ⊢
      obtain ⟨run' | ⟨outcome, made⟩, b'⟩ := x
      · obtain ⟨a, ha, hwaiting⟩ := hrun
        exact ⟨a, (Request.awaits?_transfer run').trans ha, hwaiting⟩
      · cases h

/-- A call that is still in the queue goes on waiting, and nothing changes. -/
theorem proceed_of_queued {n : Nat} {r : Request} {l : Lock} (hparked : b.Parked n r)
    (ha : r.awaits? = some a) (hheld : a ∉ b.heldBy (r.owner n)) (hl : b.locks.get? a = some l)
    (hh : l.holder ≠ r.owner n) (hw : r.owner n ∈ l.waiting) : r.proceed n b = (none, r, b) := by
  have hadd : ∀ {o delta}, a ∉ b.heldBy o → l.holder ≠ o → o ∈ l.waiting →
      b.addBalance o a delta = (none, b) := by
    intro o delta hheld hh hw
    unfold addBalance
    rw [if_neg fun e => hheld (Work.holds_iff.1 e), acquire_of_queued hl hh hw]
  cases r with
  | addBalance unit account delta =>
      obtain rfl := Option.some.inj ha
      unfold Request.proceed
      dsimp only
      rw [hadd (o := .unit unit) hheld hh hw]
      rfl
  | updateAccount account balance =>
      obtain rfl := Option.some.inj ha
      unfold Request.proceed updateAccount
      dsimp only
      rw [acquire_of_queued (o := .call n) hl hh hw]
      rfl
  | deleteAccount account =>
      obtain rfl := Option.some.inj ha
      unfold Request.proceed deleteAccount
      dsimp only
      rw [acquire_of_queued (o := .call n) hl hh hw]
      rfl
  | transfer run =>
      -- The first call that the transfer makes is the one that has to wait.
      have hanswer : (store (.call n)).answer run b = (none, b) := by
        unfold Store.answer
        rw [hparked.2]
        rw [Request.awaits?_transfer] at ha
        obtain ⟨request, faults, stage, answered⟩ := run
        cases stage with
        | adjustingFirst t debit credit =>
            obtain rfl := Option.some.inj ha
            exact hadd hheld hh hw
        | adjustingSecond t debit credit first =>
            obtain rfl := Option.some.inj ha
            exact hadd hheld hh hw
        | _ => cases ha
      obtain ⟨fuel, hfuel⟩ := Nat.exists_eq_succ_of_ne_zero (Store.remaining_pos run.stage).ne'
      unfold Request.proceed Store.run
      dsimp only
      rw [hfuel]
      unfold Store.runFor
      rw [hanswer]

end Bank

end DoubleEntry
