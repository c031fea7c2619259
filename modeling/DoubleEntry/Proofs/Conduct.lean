import DoubleEntry.Proofs.Exchanges
import DoubleEntry.Bank.Work
set_option autoImplicit false

/-! # The conduct of a transfer

What the calls of a transfer and its outcome are, whatever the ledger store answers. `Follows` says
that calls keep to the plan up to the first that fails and that only its remedy comes after it; the
order and the number of the calls are derived from that. `Orderly` puts this together with what the
outcome tells.
-/

namespace DoubleEntry

/-- **Calls follow the plan of a transfer** up to the first that fails, and then comes nothing but
its remedy. -/
inductive Follows (n : NewTransfer) : List Exchange → List Call → Prop
  | smooth {xs : List Exchange} {made : List Call} (succeeded : xs.any Exchange.failed = false)
      (plan : made <+: n.plan) : Follows n xs made
  | broken {before after : List Exchange} {c : Call}
      (succeeded : before.any Exchange.failed = false)
      (plan : before.map Exchange.call ++ [c] <+: n.plan) (e : LedgerError)
      (remedy : after.map Exchange.call <+: c.remedy) :
      Follows n (before ++ .lost c e :: after) (before.map Exchange.call ++ [c] ++ c.remedy)

namespace Call

theorem remedy_cases (c : Call) : c.remedy = [] ∨ c.remedy = [.rollback] := by
  cases c <;> simp [remedy]

/-- At most a rollback is made as a remedy. -/
theorem exchanges_of_remedy {c : Call} {xs : List Exchange}
    (h : xs.map Exchange.call <+: c.remedy) :
    xs = [] ∨ ∃ x, xs = [x] ∧ x.call = .rollback ∧ c.remedy = [.rollback] := by
  cases xs with
  | nil => exact .inl rfl
  | cons x xs =>
      rcases c.remedy_cases with hc | hc
      · simp [hc] at h
      · rw [hc, List.map_cons, List.cons_prefix_cons] at h
        obtain ⟨hx, hrest⟩ := h
        have hnil : xs = [] := by simpa using hrest
        exact .inr ⟨x, by rw [hnil], hx, hc⟩

end Call

namespace Follows

variable {n : NewTransfer} {xs : List Exchange} {made : List Call}

theorem onPlan (h : Follows n xs made) : made.filter (· ≠ .rollback) <+: n.plan := by
  have hkeep : ∀ {calls : List Call}, calls <+: n.plan →
      calls.filter (· ≠ .rollback) = calls := by
    intro calls hcalls
    refine List.filter_eq_self.2 fun c hc => ?_
    have hne : c ≠ .rollback := fun e => NewTransfer.rollback_not_mem_of_plan hcalls (e ▸ hc)
    simpa using hne
  cases h with
  | smooth succeeded plan =>
      rw [hkeep plan]
      exact plan
  | @broken before after c succeeded plan e remedy =>
      have hremedy : c.remedy.filter (· ≠ .rollback) = [] := by
        rcases c.remedy_cases with hc | hc <;> simp [hc]
      rw [List.filter_append, hkeep plan, hremedy, List.append_nil]
      exact plan

/-- A call that failed is followed by its remedy and by nothing else. -/
theorem halts (h : Follows n xs made) {before after : List Exchange} {x : Exchange}
    (hx : xs = before ++ x :: after) (failed : x.failed = true) :
    made = before.map Exchange.call ++ [x.call] ++ x.call.remedy := by
  cases h with
  | smooth succeeded plan => exact absurd failed (List.any_eq_false.1 succeeded x (by simp [hx]))
  | @broken before' after' c succeeded plan e remedy =>
      rcases List.append_eq_append_iff.1 hx with ⟨more, rfl, hmore⟩ | ⟨more, rfl, hmore⟩
      · cases more with
        | nil =>
            obtain ⟨rfl, rfl⟩ := List.cons.inj hmore
            simp
        | cons y more =>
            -- The call comes after the first that failed, so it is the rollback.
            obtain ⟨rfl, rfl⟩ := List.cons.inj hmore
            rcases Call.exchanges_of_remedy remedy with hnil | ⟨z, hz, hcall, hremedy⟩
            · simp at hnil
            · cases more with
              | nil =>
                  obtain rfl := (List.cons.inj hz).1
                  rw [hremedy, hcall, List.map_append]
                  simp [Call.remedy]
              | cons y more => simp at hz
      · cases more with
        | nil =>
            obtain ⟨rfl, rfl⟩ := List.cons.inj hmore
            simp
        | cons y more =>
            obtain ⟨rfl, -⟩ := List.cons.inj hmore
            exact absurd failed (List.any_eq_false.1 succeeded x (by simp))

theorem rollsBack (h : Follows n xs made) (hmem : Call.rollback ∈ made) :
    ∃ x ∈ xs, x.failed = true ∧ x.call.remedy = [.rollback] := by
  cases h with
  | smooth succeeded plan => exact absurd hmem (NewTransfer.rollback_not_mem_of_plan plan)
  | @broken before after c succeeded plan e remedy =>
      refine ⟨.lost c e, by simp, rfl, ?_⟩
      rcases c.remedy_cases with hc | hc
      · rw [hc, List.append_nil] at hmem
        exact absurd hmem (NewTransfer.rollback_not_mem_of_plan plan)
      · exact hc

/-- Of all that ends a unit of work at most one is called, and at most once. -/
theorem once (h : Follows n xs made) : made.count .commit + made.count .rollback ≤ 1 := by
  have hgroundwork : n.groundwork.count .commit = 0 :=
    List.count_eq_zero.2 n.commit_not_mem_groundwork
  have hcommit : ∀ {calls : List Call}, calls <+: n.plan → calls.count .commit ≤ 1 := by
    intro calls hcalls
    calc calls.count .commit ≤ n.plan.count .commit := hcalls.sublist.count_le _
      _ = 1 := by simp [NewTransfer.plan, hgroundwork]
  have hrollback : ∀ {calls : List Call}, calls <+: n.plan → calls.count .rollback = 0 :=
    fun hcalls => List.count_eq_zero.2 (NewTransfer.rollback_not_mem_of_plan hcalls)
  cases h with
  | smooth succeeded plan =>
      have h₁ := hcommit plan
      have h₂ := hrollback plan
      omega
  | @broken before after c succeeded plan e remedy =>
      have h₂ := hrollback plan
      rcases c.remedy_cases with hc | hc
      · have h₁ := hcommit plan
        rw [hc, List.append_nil]
        omega
      · -- A call with a remedy is not the commit, which nothing of the plan comes after.
        have hne : c ≠ .commit := by
          rintro rfl
          simp [Call.remedy] at hc
        have h₁ : (before.map Exchange.call ++ [c]).count .commit = 0 :=
          List.count_eq_zero.2 (NewTransfer.commit_not_mem_of_ne plan hne)
        have hlast : [Call.rollback].count .commit + [Call.rollback].count .rollback = 1 := rfl
        generalize before.map Exchange.call ++ [c] = calls at h₁ h₂ ⊢
        rw [hc, List.count_append, List.count_append, h₁, h₂]
        omega

end Follows

/-! ## Orderly transfers -/

/-- What led to a rollback. -/
theorem Stage.After.cases_rollingBack {n : NewTransfer} {xs : List Exchange} {cause : LedgerError}
    (h : Stage.After n xs (.rollingBack cause)) : ∃ (s : Stage) (before : List Exchange),
      s.exchanges? n = some before ∧
      (s.call n).remedy = [.rollback] ∧ xs = before ++ [.lost (s.call n) cause] := by
  cases h with
  | going h => cases h
  | failing h remedy cause => exact ⟨_, _, h, remedy, rfl⟩

/-- **A transfer is orderly:** what it called and how it ended, by what it was answered. -/
structure Orderly (n : NewTransfer) (xs : List Exchange) (a : Advance) : Prop where
  /-- The calls that were made are those that were answered, and the one that waits. -/
  answered : a.made = xs.map Exchange.call ++ a.awaited
  /-- Apart from a rollback the calls are those of the plan, in order, as far as they go. -/
  onPlan : a.made.filter (· ≠ .rollback) <+: n.plan
  /-- Up to a call that failed all calls are listed before it; after it comes its remedy, which is
  one rollback or nothing, and then the transfer is over. -/
  halts : ∀ {before after : List Exchange} {x : Exchange}, xs = before ++ x :: after →
    x.failed = true → a.made = before.map Exchange.call ++ [x.call] ++ x.call.remedy
  /-- Nothing is rolled back unless a call failed that has this remedy. -/
  rollsBack : Call.rollback ∈ a.made → ∃ x ∈ xs, x.failed = true ∧ x.call.remedy = [.rollback]
  /-- Of commit and rollback at most one is called, and at most once. -/
  once : a.made.count .commit + a.made.count .rollback ≤ 1
  /-- The transfer is completed by the success of its commit, and by nothing else. -/
  completes : (∃ r made, a = .ended (.completed r) made) ↔
    ∃ x ∈ xs, x.call = .commit ∧ x.failed = false
  /-- The receipt of a completed transfer holds what the calls answered. -/
  receipt : ∀ {r made}, a = .ended (.completed r) made → xs = r.exchanges n ++ [.done .commit ()]
  /-- The error of a failed transfer is that of the first call that failed. Only if the rollback
  failed too, its error is added. -/
  cause : ∀ {e made}, a = .ended (.failed e) made → ∃ before c cause after,
    xs = before ++ .lost c cause :: after ∧ before.any Exchange.failed = false ∧
      ((e = cause ∧ after.any Exchange.failed = false) ∨
        ∃ r, after = [.lost .rollback r] ∧ e = cause.withRollbackFailure r)
  /-- The transfer ends with nothing else. -/
  representable : ∀ {made}, a ≠ .ended .overflowed made

namespace Advance.After

variable {n : NewTransfer} {xs : List Exchange} {a : Advance}

theorem answered (h : a.After n xs) : a.made = xs.map Exchange.call ++ a.awaited := by
  cases a with
  | waiting r =>
      obtain ⟨-, hanswered, -⟩ := h
      rw [made, Run.made, hanswered]
      rfl
  | ended outcome made =>
      rw [Advance.made, awaited, List.append_nil]
      exact h.1

/-- A call that failed and its remedy, as far as it was answered, follow the plan. -/
theorem follows_rollingBack {xs : List Exchange} {cause : LedgerError}
    (h : Stage.After n xs (.rollingBack cause)) (after : List Exchange)
    (hafter : after.map Exchange.call <+: [.rollback]) :
    Follows n (xs ++ after) (xs.map Exchange.call ++ [.rollback]) := by
  obtain ⟨s, before, hs, remedy, rfl⟩ := h.cases_rollingBack
  have hfollows := Follows.broken (Stage.failed_of_exchanges hs) (Stage.plan_of_exchanges hs) cause
    (remedy ▸ hafter)
  rw [remedy] at hfollows
  simpa using hfollows

theorem follows (h : a.After n xs) : Follows n xs a.made := by
  have hmade := h.answered
  cases a with
  | waiting r =>
      obtain ⟨rfl, -, hstage⟩ := h
      obtain ⟨request, faults, stage, answered⟩ := r
      rw [hmade]
      cases hstage with
      | going h => exact .smooth (Stage.failed_of_exchanges h) (Stage.plan_of_exchanges h)
      | failing h remedy cause =>
          have hfollows := follows_rollingBack (.failing h remedy cause) [] List.nil_prefix
          rwa [List.append_nil] at hfollows
  | ended outcome made =>
      obtain ⟨-, houtcome⟩ := h
      rw [hmade, awaited, List.append_nil]
      cases houtcome with
      | completed r =>
          refine .smooth ?_ ?_
          · rw [List.any_append, Stage.failed_receipt]
            rfl
          · rw [List.map_append, Stage.calls_receipt]
            exact List.prefix_rfl
      | @refused s before h remedy e =>
          have hnone : ([] : List Exchange).map Exchange.call <+: (s.call n).remedy :=
            List.nil_prefix
          have hfollows := Follows.broken (Stage.failed_of_exchanges h) (Stage.plan_of_exchanges h)
            e hnone
          rw [remedy, List.append_nil] at hfollows
          rw [List.map_append]
          exact hfollows
      | rolledBack h =>
          rw [List.map_append]
          exact follows_rollingBack h [.done .rollback ()] List.prefix_rfl
      | stuck h e =>
          rw [List.map_append]
          exact follows_rollingBack h [.lost .rollback e] List.prefix_rfl

/-- No commit leads to a stage at which nothing has failed. -/
theorem call_ne_commit {s : Stage} {before : List Exchange} (hs : s.exchanges? n = some before)
    {x : Exchange} (hx : x ∈ before) : x.call ≠ .commit := by
  intro hcommit
  exact NewTransfer.commit_not_mem_of_plan (Stage.plan_of_exchanges hs)
    (List.mem_map.2 ⟨x, hx, hcommit⟩)

theorem failed_of_commit {s : Stage} {before : List Exchange} (hs : s.exchanges? n = some before)
    {c : Call} {e : LedgerError} {x : Exchange} (hx : x ∈ before ++ [.lost c e])
    (hcommit : x.call = .commit) : x.failed = true := by
  rcases List.mem_append.1 hx with hx | hx
  · exact absurd hcommit (call_ne_commit hs hx)
  · rw [List.mem_singleton.1 hx]
    rfl

theorem failed_of_rollingBack {cause : LedgerError} (h : Stage.After n xs (.rollingBack cause))
    {x y : Exchange} (hx : x ∈ xs ++ [y]) (hy : y.call = .rollback) (hcommit : x.call = .commit) :
    x.failed = true := by
  obtain ⟨s, before, hs, -, rfl⟩ := h.cases_rollingBack
  rcases List.mem_append.1 hx with hx | hx
  · exact failed_of_commit hs hx hcommit
  · rw [List.mem_singleton.1 hx, hy] at hcommit
    cases hcommit

theorem completes (h : a.After n xs) : (∃ r made, a = .ended (.completed r) made) ↔
    ∃ x ∈ xs, x.call = .commit ∧ x.failed = false := by
  constructor
  · rintro ⟨r, made, rfl⟩
    obtain ⟨-, houtcome⟩ := h
    cases houtcome
    exact ⟨.done .commit (), by simp, rfl, rfl⟩
  · rintro ⟨x, hx, hcommit, hfailed⟩
    have habsurd : x.failed ≠ true := by simp [hfailed]
    cases a with
    | waiting r =>
        obtain ⟨request, faults, stage, answered⟩ := r
        obtain ⟨-, -, hstage⟩ := h
        cases hstage with
        | going hs => exact absurd hcommit (call_ne_commit hs hx)
        | failing hs remedy cause => exact absurd (failed_of_commit hs hx hcommit) habsurd
    | ended outcome made =>
        obtain ⟨-, houtcome⟩ := h
        cases houtcome with
        | completed r => exact ⟨r, made, rfl⟩
        | refused hs remedy e => exact absurd (failed_of_commit hs hx hcommit) habsurd
        | rolledBack hs => exact absurd (failed_of_rollingBack hs hx rfl hcommit) habsurd
        | stuck hs e => exact absurd (failed_of_rollingBack hs hx rfl hcommit) habsurd

theorem cause {e : LedgerError} {made : List Call} (h : (ended (.failed e) made).After n xs) :
    ∃ before c cause after, xs = before ++ .lost c cause :: after ∧
      before.any Exchange.failed = false ∧ ((e = cause ∧ after.any Exchange.failed = false) ∨
        ∃ r, after = [.lost .rollback r] ∧ e = cause.withRollbackFailure r) := by
  obtain ⟨-, houtcome⟩ := h
  cases houtcome with
  | refused hs remedy =>
      exact ⟨_, _, e, [], rfl, Stage.failed_of_exchanges hs, .inl ⟨rfl, rfl⟩⟩
  | rolledBack hs =>
      obtain ⟨s, before, hbefore, -, rfl⟩ := hs.cases_rollingBack
      exact ⟨before, s.call n, e, [.done .rollback ()], by simp, Stage.failed_of_exchanges hbefore,
        .inl ⟨rfl, rfl⟩⟩
  | @stuck _ cause hs r =>
      obtain ⟨s, before, hbefore, -, rfl⟩ := hs.cases_rollingBack
      exact ⟨before, s.call n, cause, [.lost .rollback r], by simp,
        Stage.failed_of_exchanges hbefore, .inr ⟨r, rfl, rfl⟩⟩

theorem orderly (h : a.After n xs) : Orderly n xs a where
  answered := h.answered
  onPlan := h.follows.onPlan
  halts := h.follows.halts
  rollsBack := h.follows.rollsBack
  once := h.follows.once
  completes := h.completes
  receipt := by
    rintro r made rfl
    obtain ⟨-, houtcome⟩ := h
    cases houtcome
    rfl
  cause := by
    rintro e made rfl
    exact h.cause
  representable := by
    rintro made rfl
    exact nomatch h.2

end Advance.After

namespace Store

variable {σ : Type}

/-- **Every transfer is orderly,** whatever the ledger store answers to its calls, whatever faults
are put in their place, and wherever it is left waiting. Running it again and again until it ends is
one such course. -/
theorem orderly_course (store : Store σ) (n : NewTransfer) (faults : List Fault)
    (representable : n.amount ≠ Amount.least) :
    (∀ states, Orderly n (store.course { request := n, faults } states).1
      (store.course { request := n, faults } states).2) ∧
    ∀ states, ∃ found, (store.course { request := n, faults } found).2 =
      store.runEach { request := n, faults } states := by
  constructor
  · intro states
    have hstart : (Advance.waiting { request := n, faults }).After n [] := ⟨rfl, rfl, .going rfl⟩
    exact (store.after_course representable states hstart).orderly
  · intro states
    exact store.exists_course _ states

/-- A transfer from an account that does not exist is rolled back. -/
theorem orderly_course_missing : (⟨2, 1, 5⟩ : NewTransfer).amount ≠ Amount.least ∧
    (((Bank.store (.call 0)).course { request := ⟨2, 1, 5⟩ }
        (List.replicate 3 (.empty true))).1.map Exchange.call =
      [.begin, .createTransfer ⟨2, 1, 5⟩, .rollback]) ∧
    Orderly ⟨2, 1, 5⟩
      ((Bank.store (.call 0)).course { request := ⟨2, 1, 5⟩ } (List.replicate 3 (.empty true))).1
      ((Bank.store (.call 0)).course { request := ⟨2, 1, 5⟩ } (List.replicate 3 (.empty true))).2 :=
  ⟨by decide, rfl, (orderly_course (Bank.store (.call 0)) ⟨2, 1, 5⟩ [] (by decide)).1 _⟩

end Store

end DoubleEntry
