import DoubleEntry.Proofs.Verdicts
set_option autoImplicit false

/-! # When a transfer may be tried again

A transfer over a database that failed with a transient error may be tried again: no commit was
requested for it, so it cannot have moved the money. A commit is requested if the backend approves
of everything before it (`Session.Approves`); if the commit itself fails the transfer fails with
that error alone, which is not transient and is not made so by anything that is told with it.
-/

namespace DoubleEntry

open Database

/-- Rollbacks that fail do not make a transient error of another one. -/
theorem LedgerError.isTransient_foldl (rollbacks : List LedgerError) (e : LedgerError) :
    (rollbacks.foldl LedgerError.withRollbackFailure e).isTransient = e.isTransient := by
  induction rollbacks generalizing e with
  | nil => rfl
  | cons r rollbacks ih => exact ih (e.withRollbackFailure r)

namespace Database.Session

variable {n : NewTransfer} {s : Session}

/-- The backend is going to let a transfer come to its commit: it begins the transaction, and all
five statements in it return a row with a record. -/
structure Approves (s : Session) : Prop where
  begun : (s.verdict 0).Acknowledges
  transfer : (s.verdict 1).Returns Row.transfer
  debit : (s.verdict 2).Returns Row.entry
  credit : (s.verdict 3).Returns Row.entry
  first : (s.verdict 4).Returns Row.account
  second : (s.verdict 5).Returns Row.account

theorem approves_iff (s : Session) (n : NewTransfer) :
    s.Approves ↔ ∀ i (c : Call), n.groundwork[i]? = some c → c.Accepts (s.verdict i) := by
  rw [NewTransfer.groundwork_eq]
  constructor
  · rintro ⟨begun, transfer, debit, credit, first, second⟩ i c hc
    match i with
    | 0 =>
        obtain rfl := Option.some.inj hc
        exact begun
    | 1 =>
        obtain rfl := Option.some.inj hc
        exact transfer
    | 2 =>
        obtain rfl := Option.some.inj hc
        exact debit
    | 3 =>
        obtain rfl := Option.some.inj hc
        exact credit
    | 4 =>
        obtain rfl := Option.some.inj hc
        exact first
    | 5 =>
        obtain rfl := Option.some.inj hc
        exact second
    | i + 6 => cases hc
  · intro h
    exact ⟨h 0 _ rfl, h 1 _ rfl, h 2 _ rfl, h 3 _ rfl, h 4 _ rfl, h 5 _ rfl⟩

/-- A transfer that came to its commit was let. -/
theorem Told.approves {receipt : Receipt} {x : Exchange}
    (h : s.Told (receipt.exchanges n ++ [x])) : s.Approves := by
  refine (s.approves_iff n).2 fun i c hc => ?_
  rw [← Stage.calls_receipt n receipt, List.getElem?_map, Option.map_eq_some_iff] at hc
  obtain ⟨y, hy, rfl⟩ := hc
  have hfailed : y.failed = false := by
    have hany := List.any_eq_false.1 (Stage.failed_receipt n receipt) y (List.mem_of_getElem? hy)
    simpa using hany
  have hlt : i < (receipt.exchanges n).length := (List.getElem?_eq_some_iff.1 hy).1
  exact (h i y (by rw [List.getElem?_append_left hlt, hy])).accepts.1 hfailed

/-- The commit is the seventh call. -/
theorem Told.fits_commit {receipt : Receipt} {x : Exchange}
    (h : s.Told (receipt.exchanges n ++ [x])) : x.Fits (s.verdict 6) := by
  have hsix : (receipt.exchanges n).length = 6 := by
    have hlength := congrArg List.length (Stage.calls_receipt n receipt)
    rwa [List.length_map, NewTransfer.groundwork_eq] at hlength
  refine h 6 x ?_
  rw [← hsix, List.getElem?_concat_length]

/-- A transfer in which another call than the commit failed was not let. -/
theorem Told.not_approves {stage : Stage} {xs : List Exchange} {cause : LedgerError}
    (h : s.Told (xs ++ [.lost (stage.call n) cause])) (hs : stage.exchanges? n = some xs)
    (hne : stage.call n ≠ .commit) : ¬ s.Approves := by
  -- The call that failed stands in the plan at the place of what the backend said to it.
  intro happroves
  obtain ⟨rest, hrest⟩ := NewTransfer.prefix_groundwork (Stage.plan_of_exchanges hs) hne
  have hcall : n.groundwork[xs.length]? = some (stage.call n) := by
    rw [← hrest, List.append_assoc, List.getElem?_append_right (by simp)]
    simp
  have hfits := h xs.length _ List.getElem?_concat_length
  exact absurd (hfits.accepts.2 ((s.approves_iff n).1 happroves _ _ hcall)) (by simp)

end Database.Session

/-- **A transfer is safe to try again:** its outcome and the statements that were made for it, by
what the backend said. -/
structure RetrySafe (s : Session) (n : NewTransfer) (outcome : Outcome) (made : List Statement) :
    Prop where
  /-- Apart from rollbacks the statements are those of the plan, in order, as far as they go. -/
  inOrder : made.filter (· ≠ .rollback) <+: n.plan.map Call.statement
  /-- A commit is requested after all other statements of the plan. -/
  whole : Statement.commit ∈ made → n.plan.map Call.statement <+: made
  /-- A transient error tells that no commit was requested. -/
  transient : ∀ e, outcome = .failed e → e.isTransient = true → Statement.commit ∉ made
  /-- The commit is requested if and only if everything before it went well. -/
  requested : Statement.commit ∈ made ↔ s.Approves
  /-- A commit that fails, for whatever reason, is told as that and nothing else, and whatever is
  told with it does not make it transient. -/
  unacknowledged : Statement.commit ∈ made → ¬ (s.verdict 6).Acknowledges → ∃ reason,
    outcome = .failed (.commitFailure reason) ∧ ∀ rollbacks : List LedgerError,
      (rollbacks.foldl LedgerError.withRollbackFailure (.commitFailure reason)).isTransient = false
  /-- No error tells of a failed commit in one of its parts. -/
  unwrapped : ∀ e, outcome = .failed e → e.concernsCommit = true →
    (∃ reason, e = .commitFailure reason) ∧ Statement.commit ∈ made
  /-- The transfer is completed if and only if its commit was acknowledged. -/
  acknowledged : (∃ receipt, outcome = .completed receipt) ↔
    Statement.commit ∈ made ∧ (s.verdict 6).Acknowledges
  /-- The transfer ends with nothing else. -/
  representable : outcome ≠ .overflowed

namespace Concluded

variable {n : NewTransfer} {xs : List Exchange} {outcome : Outcome} {s : Session}

/-- The calls are those of the plan, up to the last that was made. -/
theorem onPlan (h : Concluded n xs outcome) : xs.map Exchange.call <+: n.plan := by
  cases h with
  | completed r =>
      rw [List.map_append, Stage.calls_receipt]
      exact List.prefix_rfl
  | failed hs cause e he =>
      rw [List.map_append]
      exact Stage.plan_of_exchanges hs

/-- **What the backend said decides how a transfer ends:** it is completed, its commit failed, or it
did not come to its commit. -/
theorem trichotomy (h : Concluded n xs outcome) (htold : s.Told xs) :
    (Call.commit ∈ xs.map Exchange.call ∧ s.Approves ∧ (s.verdict 6).Acknowledges ∧
        ∃ receipt, outcome = .completed receipt) ∨
      (Call.commit ∈ xs.map Exchange.call ∧ s.Approves ∧ ¬ (s.verdict 6).Acknowledges ∧
        ∃ reason, outcome = .failed (.commitFailure reason)) ∨
      (Call.commit ∉ xs.map Exchange.call ∧ ¬ s.Approves ∧
        ∃ e, outcome = .failed e ∧ e.concernsCommit = false) := by
  cases h with
  | completed receipt =>
      have hmem : Exchange.done .commit () ∈ receipt.exchanges n ++ [.done .commit ()] := by simp
      have hack : (s.verdict 6).Acknowledges := htold.fits_commit.accepts.1 rfl
      exact .inl ⟨List.mem_map.2 ⟨_, hmem, rfl⟩, htold.approves, hack, receipt, rfl⟩
  | @failed stage xs hs cause e he =>
      -- If another call than the commit failed, the commit was never requested.
      by_cases hcall : stage.call n = .commit
      · obtain ⟨receipt, rfl, rfl⟩ := Stage.committing_of_call hs hcall
        have hmem : Exchange.lost .commit cause ∈ receipt.exchanges n ++ [.lost .commit cause] := by
          simp
        have hfits := htold.fits_commit
        have hnot : ¬ (s.verdict 6).Acknowledges := fun hack => by
          simpa using hfits.accepts.2 hack
        obtain ⟨reason, rfl⟩ := hfits.raises cause rfl
        rcases he with rfl | ⟨hne, -⟩
        · exact .inr (.inl ⟨List.mem_map.2 ⟨_, hmem, rfl⟩, htold.approves, hnot, reason, rfl⟩)
        · exact absurd rfl hne
      · have hfits := htold xs.length _ List.getElem?_concat_length
        have hcause : cause.concernsCommit = false := (hfits.raises cause rfl).concernsCommit hcall
        have hnone : Call.commit ∉ xs.map Exchange.call ++ [stage.call n] :=
          NewTransfer.commit_not_mem_of_ne (Stage.plan_of_exchanges hs) hcall
        rw [List.map_append]
        refine .inr (.inr ⟨hnone, htold.not_approves hs hcall, e, rfl, ?_⟩)
        rcases he with rfl | ⟨-, reason, rfl⟩
        · exact hcause
        · simp [LedgerError.withRollbackFailure, LedgerError.concernsCommit, hcause]

/-- A transfer that came to its commit made all calls of the plan. -/
theorem calls_of_commit (h : Concluded n xs outcome) (hmem : Call.commit ∈ xs.map Exchange.call) :
    xs.map Exchange.call = n.plan := by
  rcases List.prefix_concat_iff.1 h.onPlan with heq | hbefore
  · exact heq
  · exact absurd (hbefore.subset hmem) n.commit_not_mem_groundwork

theorem retrySafe (h : Concluded n xs outcome) (htold : s.Told xs) (k : Nat) :
    RetrySafe s n outcome (xs.map Exchange.statement ++ List.replicate k .rollback) where
  inOrder := by
    have hkeep : ∀ st ∈ xs.map Exchange.statement, decide (st ≠ Statement.rollback) = true := by
      intro st hst
      rw [Exchange.map_statement] at hst
      obtain ⟨c, hc, rfl⟩ := List.mem_map.1 hst
      have hne : c ≠ .rollback := by
        rintro rfl
        exact NewTransfer.rollback_not_mem_of_plan h.onPlan hc
      simpa [Call.statement_eq_rollback] using hne
    rw [List.filter_append, List.filter_eq_self.2 hkeep, List.filter_replicate_of_neg (by simp),
      List.append_nil, Exchange.map_statement]
    exact h.onPlan.map Call.statement
  whole := by
    rw [Exchange.commit_mem_made]
    intro hmem
    rw [Exchange.map_statement, h.calls_of_commit hmem]
    exact List.prefix_append _ _
  transient := by
    rintro e rfl htransient hmem
    rw [Exchange.commit_mem_made] at hmem
    rcases h.trichotomy htold with ⟨-, -, -, receipt, hr⟩ | ⟨-, -, -, reason, hr⟩ | ⟨hnone, -⟩
    · cases hr
    · cases hr
      cases htransient
    · exact hnone hmem
  requested := by
    rw [Exchange.commit_mem_made]
    rcases h.trichotomy htold with ⟨hmem, happ, -⟩ | ⟨hmem, happ, -⟩ | ⟨hnone, hnot, -⟩
    · exact iff_of_true hmem happ
    · exact iff_of_true hmem happ
    · exact iff_of_false hnone hnot
  unacknowledged := by
    rw [Exchange.commit_mem_made]
    intro hmem hnot
    rcases h.trichotomy htold with ⟨-, -, hack, -⟩ | ⟨-, -, -, reason, hr⟩ | ⟨hnone, -⟩
    · exact absurd hack hnot
    · exact ⟨reason, hr, fun rollbacks => LedgerError.isTransient_foldl rollbacks _⟩
    · exact absurd hmem hnone
  unwrapped := by
    rintro e rfl hconcerns
    rw [Exchange.commit_mem_made]
    rcases h.trichotomy htold with ⟨-, -, -, receipt, hr⟩ | ⟨hmem, -, -, reason, hr⟩ |
      ⟨-, -, e', hr, hnot⟩
    · cases hr
    · cases hr
      exact ⟨⟨reason, rfl⟩, hmem⟩
    · cases hr
      rw [hconcerns] at hnot
      cases hnot
  acknowledged := by
    rw [Exchange.commit_mem_made]
    rcases h.trichotomy htold with ⟨hmem, -, hack, hr⟩ | ⟨-, -, hnot, reason, rfl⟩ |
      ⟨hnone, -, e, rfl, -⟩
    · exact iff_of_true hr ⟨hmem, hack⟩
    · exact iff_of_false (by simp) fun hboth => hnot hboth.2
    · exact iff_of_false (by simp) fun hboth => hnone hboth.1
  representable := by
    rintro rfl
    cases h

end Concluded

namespace Database.Session

/-- **Transfers over a database are safe to try again.** Whatever a session did before and whatever
the backend says to the statements of a transfer, its outcome tells whether money can have been
moved: after a transient error no commit was requested. -/
theorem retrySafe_transfer (mostUnits : Nat) (requests : List (List Verdict × Request))
    (verdicts : List Verdict) (n : NewTransfer) (representable : n.amount ≠ Amount.least) :
    let s := { ({ mostUnits } : Session).takeAll requests with verdicts }
    ∃ made, (s.transfer { request := n }).2.sent = s.sent ++ made ∧
      RetrySafe s n (s.transfer { request := n }).1.1 made := by
  intro s
  have hidle : s.link? engine = none :=
    link?_takeAll_engine (s := { mostUnits }) rfl requests
  obtain ⟨xs, k, hconcluded, htold, hsent⟩ := concluded_transfer representable hidle
  exact ⟨_, hsent, hconcluded.retrySafe htold k⟩

/-- What a backend says to the statements of a transfer if it loses the connection while it
commits. -/
def lostCommit : List Verdict :=
  let transfer : Row := [("id", .int 1), ("from_account_id", .int 1), ("to_account_id", .int 2),
    ("amount", .int 5), ("created_at", .int 0)]
  let entry (account amount : Int) : Row :=
    [("id", .int account), ("account_id", .int account), ("amount", .int amount),
      ("created_at", .int 0)]
  let account (id balance : Int) : Row :=
    [("id", .int id), ("owner", .text "ann"), ("balance", .int balance), ("currency", .text "USD"),
      ("created_at", .int 0)]
  [.executed {}, .executed { rows := [transfer] }, .executed { rows := [entry 1 (-5)] },
    .executed { rows := [entry 2 5] }, .executed { rows := [account 1 95] },
    .executed { rows := [account 2 105] }, .closed]

/-- A transfer that loses its connection while it commits is not to be tried again. -/
theorem retrySafe_transfer_lostCommit :
    let s := { ({ mostUnits := 3 } : Session).takeAll [([], .healthCheck)] with
      verdicts := lostCommit }
    (⟨1, 2, 5⟩ : NewTransfer).amount ≠ Amount.least ∧
      (s.transfer { request := ⟨1, 2, 5⟩ }).1.1 =
        .failed Failure.endOfConnection.whileCommitting ∧
      ∃ made, (s.transfer { request := ⟨1, 2, 5⟩ }).2.sent = s.sent ++ made ∧
        RetrySafe s ⟨1, 2, 5⟩ (s.transfer { request := ⟨1, 2, 5⟩ }).1.1 made :=
  ⟨by decide, rfl, retrySafe_transfer 3 [([], .healthCheck)] lostCommit ⟨1, 2, 5⟩ (by decide)⟩

end Database.Session

end DoubleEntry
