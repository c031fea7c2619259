import DoubleEntry.Proofs.Runs
set_option autoImplicit false

/-! # The calls of a transfer

Which calls a transfer makes on a ledger store of which nothing is known: it may answer a call with
anything, let it wait, or have a fault put in its place. The calls follow a plan
(`NewTransfer.plan`) up to the first that fails; a failure inside the unit of work is rolled back,
once and at once, and nothing is called after that.

What led to a stage (`Stage.After`) and to an outcome (`Outcome.After`) is said once and kept by
each call (`Stage.After.resume`). `Store.course` plays a transfer against a store that is found in
given states, and keeps each call with its answer.
-/

namespace DoubleEntry

/-- A call on a ledger store, and the answer to it. -/
structure Exchange where
  call : Call
  answer : Except LedgerError call.Answer

namespace Exchange

/-- A call that succeeded. -/
def done (c : Call) (a : c.Answer) : Exchange := ⟨c, .ok a⟩

/-- A call that failed. -/
def lost (c : Call) (e : LedgerError) : Exchange := ⟨c, .error e⟩

/-- Whether the call failed. -/
def failed (x : Exchange) : Bool :=
  match x.answer with
  | .ok _ => false
  | .error _ => true

@[simp] theorem call_done (c : Call) (a : c.Answer) : (done c a).call = c := rfl

@[simp] theorem call_lost (c : Call) (e : LedgerError) : (lost c e).call = c := rfl

@[simp] theorem failed_done (c : Call) (a : c.Answer) : (done c a).failed = false := rfl

@[simp] theorem failed_lost (c : Call) (e : LedgerError) : (lost c e).failed = true := rfl

end Exchange

/-- What a transfer calls after a call that failed: a unit of work that was begun and that nobody
has tried to end is rolled back. -/
def Call.remedy : Call → List Call
  | .begin | .commit | .rollback => []
  | .createTransfer _ | .createEntry _ | .addBalance _ _ => [.rollback]

namespace NewTransfer

/-- The calls of the plan of a transfer before its commit. -/
def groundwork (n : NewTransfer) : List Call :=
  [.begin, .createTransfer n, .createEntry ⟨n.source, -n.amount⟩,
    .createEntry ⟨n.target, n.amount⟩] ++
  if n.source < n.target then
    [.addBalance n.source (-n.amount), .addBalance n.target n.amount]
  else [.addBalance n.target n.amount, .addBalance n.source (-n.amount)]

/-- **The calls of a transfer in which no call fails.** The balance of the account with the lower
number is adjusted first; if the accounts are the same, the credit comes first. -/
def plan (n : NewTransfer) : List Call := n.groundwork ++ [.commit]

theorem groundwork_eq (n : NewTransfer) : n.groundwork =
    [.begin, .createTransfer n, .createEntry ⟨n.source, -n.amount⟩,
      .createEntry ⟨n.target, n.amount⟩,
      .addBalance n.adjustments.1.account n.adjustments.1.delta,
      .addBalance n.adjustments.2.account n.adjustments.2.delta] := by
  unfold groundwork adjustments
  by_cases h : n.source < n.target
  · simp [h, debit, credit]
  · simp [h, debit, credit]

theorem commit_not_mem_groundwork (n : NewTransfer) : Call.commit ∉ n.groundwork := by
  simp [groundwork_eq]

theorem rollback_not_mem_plan (n : NewTransfer) : Call.rollback ∉ n.plan := by
  simp [plan, groundwork_eq]

variable {n : NewTransfer} {before calls : List Call} {c : Call}

/-- The commit comes last in the plan. -/
theorem prefix_groundwork (h : before ++ [c] <+: n.plan) (hc : c ≠ .commit) :
    before ++ [c] <+: n.groundwork := by
  rcases List.prefix_concat_iff.1 h with heq | h
  · exact absurd (List.append_inj_right' heq rfl) (by simpa using hc)
  · exact h

/-- Before the last call of the plan no commit is made. -/
theorem commit_not_mem_of_plan (h : before ++ [c] <+: n.plan) : Call.commit ∉ before := by
  intro hmem
  have hbefore : before <+: n.groundwork := by
    rcases List.prefix_concat_iff.1 h with heq | h
    · rw [List.append_inj_left' heq rfl]
    · exact (List.prefix_append before [c]).trans h
  exact n.commit_not_mem_groundwork (hbefore.subset hmem)

/-- Up to another call than the last no commit is made. -/
theorem commit_not_mem_of_ne (h : before ++ [c] <+: n.plan) (hc : c ≠ .commit) :
    Call.commit ∉ before ++ [c] := by
  intro hmem
  exact n.commit_not_mem_groundwork ((prefix_groundwork h hc).subset hmem)

theorem rollback_not_mem_of_plan (h : calls <+: n.plan) : Call.rollback ∉ calls := by
  intro hmem
  exact n.rollback_not_mem_plan (h.subset hmem)

end NewTransfer

/-- The exchanges of a transfer up to its commit, if it leaves the given receipt behind: the account
of each side is what the adjustment for that side answered. -/
def Receipt.exchanges (n : NewTransfer) (r : Receipt) : List Exchange :=
  [.done .begin (), .done (.createTransfer n) r.transfer,
    .done (.createEntry ⟨n.source, -n.amount⟩) r.debit,
    .done (.createEntry ⟨n.target, n.amount⟩) r.credit] ++
  if n.source < n.target then
    [.done (.addBalance n.source (-n.amount)) r.source,
      .done (.addBalance n.target n.amount) r.target]
  else
    [.done (.addBalance n.target n.amount) r.target,
      .done (.addBalance n.source (-n.amount)) r.source]

/-! ## What leads to a stage, and to an outcome -/

namespace Stage

variable {n : NewTransfer}

/-- The exchanges that lead to a stage before which no call has failed. -/
def exchanges? (n : NewTransfer) : Stage → Option (List Exchange)
  | .beginning => some []
  | .recording => some [.done .begin ()]
  | .debiting t => some [.done .begin (), .done (.createTransfer n) t]
  | .crediting t debit => some [.done .begin (), .done (.createTransfer n) t,
      .done (.createEntry ⟨n.source, -n.amount⟩) debit]
  | .adjustingFirst t debit credit => some [.done .begin (), .done (.createTransfer n) t,
      .done (.createEntry ⟨n.source, -n.amount⟩) debit,
      .done (.createEntry ⟨n.target, n.amount⟩) credit]
  | .adjustingSecond t debit credit first => some [.done .begin (), .done (.createTransfer n) t,
      .done (.createEntry ⟨n.source, -n.amount⟩) debit,
      .done (.createEntry ⟨n.target, n.amount⟩) credit,
      .done (.addBalance n.adjustments.1.account n.adjustments.1.delta) first]
  | .committing r => some (r.exchanges n)
  | .rollingBack _ => none

theorem exchanges_receipt (n : NewTransfer) (t : Transfer) (debit credit : Entry)
    (first second : Account) : (receipt n t debit credit first second).exchanges n =
      [.done .begin (), .done (.createTransfer n) t,
        .done (.createEntry ⟨n.source, -n.amount⟩) debit,
        .done (.createEntry ⟨n.target, n.amount⟩) credit,
        .done (.addBalance n.adjustments.1.account n.adjustments.1.delta) first,
        .done (.addBalance n.adjustments.2.account n.adjustments.2.delta) second] := by
  unfold receipt Receipt.exchanges
  by_cases h : n.source < n.target
  · have hadj : n.adjustments = (n.debit, n.credit) := if_pos h
    rw [if_pos h, hadj]
    rfl
  · have hadj : n.adjustments = (n.credit, n.debit) := if_neg h
    rw [if_neg h, hadj]
    rfl

theorem calls_receipt (n : NewTransfer) (r : Receipt) :
    (r.exchanges n).map Exchange.call = n.groundwork := by
  unfold Receipt.exchanges NewTransfer.groundwork
  by_cases h : n.source < n.target
  · rw [if_pos h, if_pos h]
    rfl
  · rw [if_neg h, if_neg h]
    rfl

theorem failed_receipt (n : NewTransfer) (r : Receipt) :
    (r.exchanges n).any Exchange.failed = false := by
  unfold Receipt.exchanges
  by_cases h : n.source < n.target
  · rw [if_pos h]
    rfl
  · rw [if_neg h]
    rfl

variable {s : Stage} {xs : List Exchange}

/-- Up to a stage at which nothing has failed the calls are those of the plan. -/
theorem plan_of_exchanges (h : s.exchanges? n = some xs) :
    xs.map Exchange.call ++ [s.call n] <+: n.plan := by
  have hplan : n.plan = n.groundwork ++ [.commit] := rfl
  cases s with
  | rollingBack cause => cases h
  | committing r =>
      obtain rfl := Option.some.inj h
      rw [calls_receipt]
      exact List.prefix_rfl
  | _ =>
      obtain rfl := Option.some.inj h
      rw [hplan, NewTransfer.groundwork_eq]
      exact ⟨_, rfl⟩

/-- No call has failed before such a stage. -/
theorem failed_of_exchanges (h : s.exchanges? n = some xs) : xs.any Exchange.failed = false := by
  cases s with
  | rollingBack cause => cases h
  | committing r =>
      obtain rfl := Option.some.inj h
      exact failed_receipt n r
  | _ =>
      obtain rfl := Option.some.inj h
      rfl

/-- Nothing but a receipt leads to the commit. -/
theorem committing_of_call (h : s.exchanges? n = some xs) (hcall : s.call n = .commit) :
    ∃ receipt : Receipt, s = .committing receipt ∧ xs = receipt.exchanges n := by
  cases s with
  | committing receipt => exact ⟨receipt, rfl, (Option.some.inj h).symm⟩
  | _ => cases hcall

/-- **What leads to a stage.** Either nothing has failed yet, or a call has failed, after none had
before, and calls for a rollback. -/
inductive After (n : NewTransfer) : List Exchange → Stage → Prop
  | going {s : Stage} {xs : List Exchange} (h : s.exchanges? n = some xs) : After n xs s
  | failing {s : Stage} {xs : List Exchange} (h : s.exchanges? n = some xs)
      (remedy : (s.call n).remedy = [.rollback]) (cause : LedgerError) :
      After n (xs ++ [.lost (s.call n) cause]) (.rollingBack cause)

end Stage

/-- **What leads to an outcome.** -/
inductive Outcome.After (n : NewTransfer) : List Exchange → Outcome → Prop
  | completed (r : Receipt) : After n (r.exchanges n ++ [.done .commit ()]) (.completed r)
  | refused {s : Stage} {xs : List Exchange} (h : s.exchanges? n = some xs)
      (remedy : (s.call n).remedy = []) (e : LedgerError) :
      After n (xs ++ [.lost (s.call n) e]) (.failed e)
  | rolledBack {xs : List Exchange} {cause : LedgerError}
      (h : Stage.After n xs (.rollingBack cause)) :
      After n (xs ++ [.done .rollback ()]) (.failed cause)
  | stuck {xs : List Exchange} {cause : LedgerError} (h : Stage.After n xs (.rollingBack cause))
      (e : LedgerError) :
      After n (xs ++ [.lost .rollback e]) (.failed (cause.withRollbackFailure e))

/-- A transfer ends after a call that leaves nothing to be rolled back. -/
theorem Outcome.After.remedy {n : NewTransfer} {xs : List Exchange} {x : Exchange}
    {outcome : Outcome} (h : Outcome.After n (xs ++ [x]) outcome) : x.call.remedy = [] := by
  generalize hxs : xs ++ [x] = ys at h
  cases h with
  | completed r =>
      obtain rfl := List.singleton_inj.1 (List.append_inj_right' hxs rfl)
      rfl
  | refused hs remedy e =>
      obtain rfl := List.singleton_inj.1 (List.append_inj_right' hxs rfl)
      exact remedy
  | rolledBack hs =>
      obtain rfl := List.singleton_inj.1 (List.append_inj_right' hxs rfl)
      rfl
  | stuck hs e =>
      obtain rfl := List.singleton_inj.1 (List.append_inj_right' hxs rfl)
      rfl

/-- What led to a stage or to an outcome. -/
def LedTo (n : NewTransfer) (xs : List Exchange) : Stage ⊕ Outcome → Prop
  | .inl s => Stage.After n xs s
  | .inr outcome => Outcome.After n xs outcome

/-- **What one call leads to.** -/
theorem Stage.After.resume {n : NewTransfer} {s : Stage} {xs : List Exchange}
    (h : s.After n xs) (representable : n.amount ≠ Amount.least)
    (answer : Except LedgerError (s.call n).Answer) :
    LedTo n (xs ++ [⟨s.call n, answer⟩]) (s.resume n answer) := by
  cases h with
  | failing h remedy cause =>
      cases answer with
      | ok a => exact .rolledBack (.failing h remedy cause)
      | error e => exact .stuck (.failing h remedy cause) e
  | going h =>
      cases s with
      | rollingBack cause => cases h
      | beginning =>
          obtain rfl := Option.some.inj h
          cases answer with
          | ok a => exact .going rfl
          | error e => exact .refused h rfl e
      | recording =>
          obtain rfl := Option.some.inj h
          cases answer with
          | ok t =>
              have hopposite : Amount.negate? n.amount = some (-n.amount) := if_neg representable
              have hresume : Stage.recording.resume n (.ok t) = .inl (.debiting t) := by
                simp only [Stage.resume, hopposite]
              rw [hresume]
              exact .going rfl
          | error e => exact .failing h rfl e
      | committing r =>
          obtain rfl := Option.some.inj h
          cases answer with
          | ok a => exact .completed r
          | error e => exact .refused h rfl e
      | adjustingSecond t debit credit first =>
          obtain rfl := Option.some.inj h
          cases answer with
          | ok second =>
              exact .going (congrArg some (exchanges_receipt n t debit credit first second))
          | error e => exact .failing h rfl e
      | _ =>
          obtain rfl := Option.some.inj h
          cases answer with
          | ok a => exact .going rfl
          | error e => exact .failing h rfl e

/-! ## The course of a transfer -/

namespace Advance

/-- The calls that were made, the one that waits for its answer included. -/
def made : Advance → List Call
  | .waiting r => r.made
  | .ended _ made => made

/-- The call that waits for its answer. -/
def awaited : Advance → List Call
  | .waiting r => [r.call]
  | .ended _ _ => []

/-- What led to where a transfer stands. -/
def After (n : NewTransfer) (xs : List Exchange) : Advance → Prop
  | .waiting r => r.request = n ∧ r.answered = xs.map Exchange.call ∧ r.stage.After n xs
  | .ended outcome made => made = xs.map Exchange.call ∧ outcome.After n xs

end Advance

namespace Store

variable {σ : Type}

/-- **The course of a transfer** on a store that is found in the given states, one after the other,
whenever the transfer is asked to go on: the calls that were answered, with their answers, and where
the transfer stands then. A call without an answer is made again in the next state. -/
def course (store : Store σ) (r : Run) : List σ → List Exchange × Advance
  | [] => ([], .waiting r)
  | s :: states =>
      match (store.answer r s).1 with
      | none => course store r states
      | some a =>
          match r.stage.resume r.request a with
          | .inl stage =>
              let (xs, advance) := course store { r with stage, answered := r.made } states
              (⟨r.call, a⟩ :: xs, advance)
          | .inr outcome => ([⟨r.call, a⟩], .ended outcome r.made)

/-- Runs a transfer in one state after the other, as long as it waits. -/
def runEach (store : Store σ) (r : Run) : List σ → Advance
  | [] => .waiting r
  | s :: states =>
      match (store.run r s).1 with
      | .waiting r => runEach store r states
      | .ended outcome made => .ended outcome made

section Course

variable {store : Store σ} {r : Run} {s : σ}

theorem course_waiting (ha : (store.answer r s).1 = none) (states : List σ) :
    store.course r (s :: states) = store.course r states := by
  rw [course, ha]

theorem course_next {a : Except LedgerError r.call.Answer} {stage : Stage}
    (ha : (store.answer r s).1 = some a) (hs : r.stage.resume r.request a = .inl stage)
    (states : List σ) : store.course r (s :: states) =
      (⟨r.call, a⟩ :: (store.course { r with stage, answered := r.made } states).1,
        (store.course { r with stage, answered := r.made } states).2) := by
  rw [course, ha]
  dsimp only
  rw [hs]

theorem course_ended {a : Except LedgerError r.call.Answer} {outcome : Outcome}
    (ha : (store.answer r s).1 = some a) (hs : r.stage.resume r.request a = .inr outcome)
    (states : List σ) :
    store.course r (s :: states) = ([⟨r.call, a⟩], .ended outcome r.made) := by
  rw [course, ha]
  dsimp only
  rw [hs]

end Course

variable (store : Store σ)

/-- **A course leads from what led to its start.** -/
theorem after_course {n : NewTransfer} (representable : n.amount ≠ Amount.least)
    (states : List σ) {r : Run} {xs : List Exchange} (h : (Advance.waiting r).After n xs) :
    (store.course r states).2.After n (xs ++ (store.course r states).1) := by
  induction states generalizing r xs with
  | nil =>
      rw [course, List.append_nil]
      exact h
  | cons s states ih =>
      obtain ⟨rfl, hanswered, hstage⟩ := h
      cases ha : (store.answer r s).1 with
      | none =>
          rw [course_waiting ha]
          exact ih ⟨rfl, hanswered, hstage⟩
      | some a =>
          have hnext := hstage.resume representable a
          have hmade : r.made = (xs ++ [Exchange.mk r.call a]).map Exchange.call := by
            rw [Run.made, hanswered, List.map_append]
            rfl
          cases hs : r.stage.resume r.request a with
          | inl stage =>
              rw [hs] at hnext
              have hrest := ih (r := { r with stage, answered := r.made }) ⟨rfl, hmade, hnext⟩
              rw [course_next ha hs]
              rwa [List.append_assoc] at hrest
          | inr outcome =>
              rw [hs] at hnext
              rw [course_ended ha hs]
              exact ⟨hmade, hnext⟩

theorem course_append {r r' : Run} {states : List σ}
    (h : (store.course r states).2 = .waiting r') (more : List σ) :
    (store.course r (states ++ more)).2 = (store.course r' more).2 := by
  induction states generalizing r with
  | nil =>
      obtain rfl := Advance.waiting.inj h
      rfl
  | cons s states ih =>
      rw [List.cons_append]
      cases ha : (store.answer r s).1 with
      | none =>
          rw [course_waiting ha] at h ⊢
          exact ih h
      | some a =>
          cases hs : r.stage.resume r.request a with
          | inl stage =>
              rw [course_next ha hs] at h ⊢
              exact ih h
          | inr outcome =>
              rw [course_ended ha hs] at h
              cases h

/-- Making calls until one has to wait is a course, through the states in which the calls find the
store. -/
theorem exists_course_runFor (fuel : Nat) (r : Run) (s : σ) :
    ∃ states, (store.course r states).2 = (store.runFor fuel r s).1 := by
  induction fuel generalizing r s with
  | zero => exact ⟨[], rfl⟩
  | succ fuel ih =>
      unfold runFor
      split
      · exact ⟨[], rfl⟩
      · rename_i a s' heq
        have ha : (store.answer r s).1 = some a := by rw [heq]
        split
        · rename_i stage hs
          obtain ⟨states, hstates⟩ := ih { r with stage, answered := r.made } s'
          exact ⟨s :: states, by rw [course_next ha hs, hstates]⟩
        · rename_i outcome hs
          exact ⟨[s], by rw [course_ended ha hs]⟩

/-- **Running a transfer again and again is a course.** -/
theorem exists_course (r : Run) (states : List σ) :
    ∃ found, (store.course r found).2 = store.runEach r states := by
  induction states generalizing r with
  | nil => exact ⟨[], rfl⟩
  | cons s states ih =>
      obtain ⟨found, hfound⟩ := store.exists_course_runFor r.stage.remaining r s
      unfold runEach
      cases hrun : (store.run r s).1 with
      | ended outcome made => exact ⟨found, hfound.trans hrun⟩
      | waiting r' =>
          obtain ⟨more, hmore⟩ := ih r'
          exact ⟨found ++ more, (store.course_append (hfound.trans hrun) more).trans hmore⟩

end Store

end DoubleEntry
