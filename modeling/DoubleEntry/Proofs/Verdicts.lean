import DoubleEntry.Proofs.Exchanges
import DoubleEntry.Proofs.Sessions
set_option autoImplicit false

/-! # What the verdicts of a backend make of a transfer

What the backend is going to say to the statements of a transfer decides everything
(`Session.Told`): a call succeeds if the backend says what the call needs (`Call.Accepts`), and
fails with an error of its kind otherwise (`Call.Raises`). `Concluded` says what the calls were when
the transfer has ended, and `Session.concluded_transfer` that every transfer comes to that.
-/

namespace DoubleEntry

open Database

/-- Whether an error tells that a commit failed, be it in one of its parts. -/
def LedgerError.concernsCommit : LedgerError → Bool
  | .commitFailure _ => true
  | .rollbackAfterFailure e r => e.concernsCommit || r.concernsCommit
  | _ => false

/-- An operation never tells that a commit failed. -/
theorem Database.Operation.concernsCommit_conclude {op : Operation} {r : Except Failure Result}
    {e : LedgerError} (h : op.conclude r = .error e) : e.concernsCommit = false := by
  have hdoing : ∀ f : Failure, (f.whileDoing op.title).concernsCommit = false := by
    intro f
    unfold Failure.whileDoing
    split <;> rfl
  rcases Operation.conclude_eq_error h with ⟨f, rfl⟩ | ⟨account, delta, -, rfl⟩
  · unfold Operation.error
    split
    · split
      · rfl
      · exact hdoing _
    · exact hdoing f
  · rfl

/-! ## Calls on a database -/

namespace Call

/-- The statement that a call makes. -/
def statement : Call → Statement
  | .begin => .begin
  | .createTransfer n => (Operation.createTransfer n).statement
  | .createEntry n => (Operation.createEntry n).statement
  | .addBalance account delta => (Operation.addBalance account delta).statement
  | .commit => .commit
  | .rollback => .rollback

/-- What a call needs the backend to say. -/
def Accepts : Call → Verdict → Prop
  | .begin, v | .commit, v | .rollback, v => v.Acknowledges
  | .createTransfer _, v => v.Returns Row.transfer
  | .createEntry _, v => v.Returns Row.entry
  | .addBalance _ _, v => v.Returns Row.account

/-- The errors that a call fails with. -/
def Raises : Call → LedgerError → Prop
  | .begin, e => ∃ reason, e = .connectionFailure reason
  | .commit, e => ∃ reason, e = .commitFailure reason
  | .rollback, e => ∃ reason, e = .rollbackFailure reason
  | .createTransfer _, e | .createEntry _, e | .addBalance _ _, e => e.concernsCommit = false

theorem statement_eq_commit {c : Call} : c.statement = .commit ↔ c = .commit := by
  cases c <;> simp [statement, Operation.statement]

theorem statement_eq_rollback {c : Call} : c.statement = .rollback ↔ c = .rollback := by
  cases c <;> simp [statement, Operation.statement]

/-- Only a commit that failed is told of. -/
theorem Raises.concernsCommit {c : Call} {e : LedgerError} (h : c.Raises e) (hc : c ≠ .commit) :
    e.concernsCommit = false := by
  cases c with
  | commit => exact absurd rfl hc
  | begin | rollback =>
      obtain ⟨reason, rfl⟩ := h
      rfl
  | _ => exact h

theorem Accepts.executed {c : Call} {v : Verdict} (h : c.Accepts v) : ∃ r, v = .executed r := by
  cases c with
  | begin | commit | rollback => exact h
  | _ =>
      obtain ⟨r, row, rest, a, hv, -, -⟩ := h
      exact ⟨r, hv⟩

end Call

/-- The answer to a call is what it has to be by what the backend says. -/
structure Exchange.Fits (x : Exchange) (v : Verdict) : Prop where
  accepts : x.failed = false ↔ x.call.Accepts v
  raises : ∀ e, x.answer = .error e → x.call.Raises e

namespace Exchange

/-- The statement that was made. -/
def statement (x : Exchange) : Statement := x.call.statement

theorem map_statement (xs : List Exchange) :
    xs.map statement = (xs.map call).map Call.statement := by
  rw [List.map_map]
  rfl

/-- A commit was requested if and only if it was called, however many rollbacks came after it. -/
theorem commit_mem_made (xs : List Exchange) (k : Nat) :
    Statement.commit ∈ xs.map statement ++ List.replicate k .rollback ↔
      Call.commit ∈ xs.map call := by
  simp [statement, Call.statement_eq_commit]

/-- An exchange fits what the backend says to an operation that makes the call. -/
theorem fits_operation {c : Call} {op : Operation} {v : Verdict}
    {answer : Except LedgerError c.Answer} (hraises : ∀ e, e.concernsCommit = false → c.Raises e)
    (hok : (∃ a, answer = .ok a) ↔ c.Accepts v)
    (herror : ∀ e, answer = .error e → op.conclude v.result = .error e) :
    Fits ⟨c, answer⟩ v where
  accepts := by
    rw [← hok]
    cases answer with
    | ok a => simp [failed]
    | error e => simp [failed]
  raises := fun e he => hraises e (Operation.concernsCommit_conclude (herror e he))

theorem fits_createTransfer (n : NewTransfer) (v : Verdict) :
    Fits ⟨.createTransfer n, (Operation.createTransfer n).conclude v.result⟩ v :=
  fits_operation (fun _ he => he) (Operation.createTransfer_isOk_iff n) fun _ he => he

theorem fits_createEntry (n : NewEntry) (v : Verdict) :
    Fits ⟨.createEntry n, (Operation.createEntry n).conclude v.result⟩ v :=
  fits_operation (fun _ he => he) (Operation.createEntry_isOk_iff n) fun _ he => he

theorem fits_addBalance (account delta : Int) (v : Verdict) :
    Fits ⟨.addBalance account delta, (Operation.addBalance account delta).conclude v.result⟩ v :=
  fits_operation (fun _ he => he) (Operation.addBalance_isOk_iff account delta) fun _ he => he

end Exchange

namespace Database.Session

variable {n : NewTransfer} {s s₀ s' : Session} {o : Owner}

/-! ## What the calls of a transfer make a session do -/

/-- The begin of a transfer opens a unit of work on a connection that lives, if it succeeds. -/
theorem store_begin (h : s.link? o = none) :
    Exchange.Fits ⟨.begin, (s.begin o).1⟩ (s.verdict 0) ∧
      ((s.begin o).2.link? o =
        if (Exchange.mk .begin (s.begin o).1).failed then none else some .alive) := by
  rw [← verdict_send s .begin]
  unfold begin
  split <;> rename_i heq <;> rw [heq]
  · rename_i r s₁
    have hnone : s₁.link? o = none := by
      have hsend : (s.send .begin).2.link? o = none := h
      rwa [heq] at hsend
    exact ⟨⟨by simp [Exchange.failed, Call.Accepts, Verdict.Acknowledges], nofun⟩,
      link?_openUnit_self hnone⟩
  all_goals
    have hsend : (s.send .begin).2.link? o = none := h
    rw [heq] at hsend
    refine ⟨⟨by simp [Exchange.failed, Call.Accepts, Verdict.Acknowledges], ?_⟩, hsend⟩
    rintro e he
    exact ⟨_, (Except.error.inj he).symm⟩

/-- **A call inside a unit of work** whose connection lives is one statement. If the call succeeds,
the connection lives on. -/
theorem store_inside {c : Call} (hc : c.remedy = [.rollback]) (h : s.link? o = some .alive) :
    ∃ a s', (store o).perform c s = (some a, s') ∧ Exchange.Fits ⟨c, a⟩ (s.verdict 0) ∧
      Said s [c.statement] s' ∧
      ((Exchange.mk c a).failed = false → s'.link? o = some .alive) := by
  have halive : ∀ {a : Except LedgerError c.Answer}, Exchange.Fits ⟨c, a⟩ (s.verdict 0) →
      (Exchange.mk c a).failed = false → s.verdict 0 ≠ .closed := by
    intro a hfits hfailed hclosed
    obtain ⟨r, hr⟩ := (hfits.accepts.1 hfailed).executed
    rw [hclosed] at hr
    cases hr
  cases c with
  | begin | commit | rollback => simp [Call.remedy] at hc
  | createTransfer n =>
      obtain ⟨hanswer, hsaid, hlink⟩ := performIn_alive h (.createTransfer n)
      have hfits := Exchange.fits_createTransfer n (s.verdict 0)
      rw [← hanswer] at hfits
      exact ⟨_, _, rfl, hfits, hsaid, fun hfailed => hlink (halive hfits hfailed)⟩
  | createEntry n =>
      obtain ⟨hanswer, hsaid, hlink⟩ := performIn_alive h (.createEntry n)
      have hfits := Exchange.fits_createEntry n (s.verdict 0)
      rw [← hanswer] at hfits
      exact ⟨_, _, rfl, hfits, hsaid, fun hfailed => hlink (halive hfits hfailed)⟩
  | addBalance account delta =>
      obtain ⟨hanswer, hsaid, hlink⟩ := performIn_alive h (.addBalance account delta)
      have hfits := Exchange.fits_addBalance account delta (s.verdict 0)
      rw [← hanswer] at hfits
      exact ⟨_, _, rfl, hfits, hsaid, fun hfailed => hlink (halive hfits hfailed)⟩

/-- The commit of a unit of work whose connection lives. -/
theorem store_commit (h : s.link? o = some .alive) :
    Exchange.Fits ⟨.commit, (s.commit o).1⟩ (s.verdict 0) ∧
      ∃ k, Said s (.commit :: List.replicate k .rollback) (s.commit o).2 := by
  obtain ⟨hanswer, k, hsaid⟩ := finish_alive h .commit Failure.whileCommitting
  have hcommit : (s.commit o).1 =
      ((s.verdict 0).result.map fun _ => ()).mapError Failure.whileCommitting := hanswer
  refine ⟨?_, k, hsaid⟩
  rw [hcommit]
  cases s.verdict 0 with
  | executed r => exact ⟨⟨fun _ => ⟨r, rfl⟩, fun _ => rfl⟩, nofun⟩
  | _ =>
      refine ⟨⟨nofun, fun h => ?_⟩, fun e he => ⟨_, (Except.error.inj he).symm⟩⟩
      obtain ⟨r, hr⟩ := h
      cases hr

/-- The answers to calls are what they have to be by what the backend was going to say. -/
def Told (s : Session) (xs : List Exchange) : Prop :=
  ∀ i (x : Exchange), xs[i]? = some x → x.Fits (s.verdict i)

theorem told_nil (s : Session) : s.Told [] := by
  intro i x hx
  cases hx

theorem Told.concat {xs : List Exchange} {x : Exchange} (h : s₀.Told xs)
    (hsaid : Said s₀ (xs.map Exchange.statement) s) (hx : x.Fits (s.verdict 0)) :
    s₀.Told (xs ++ [x]) := by
  intro i y hy
  rw [hsaid.verdict, List.length_map, Nat.add_zero] at hx
  rcases Nat.lt_trichotomy i xs.length with hi | rfl | hi
  · rw [List.getElem?_append_left hi] at hy
    exact h i y hy
  · rw [List.getElem?_concat_length] at hy
    obtain rfl := Option.some.inj hy
    exact hx
  · have hlength : (xs ++ [x]).length ≤ i := by
      rw [List.length_append]
      exact hi
    rw [List.getElem?_eq_none hlength] at hy
    cases hy

end Database.Session

/-- The connection that a transfer has at a stage. One that is rolled back may have lost it. -/
def Stage.Linked : Stage → Option Link → Prop
  | .beginning, link => link = none
  | .rollingBack _, _ => True
  | _, link => link = some .alive

/-- A stage that a call led to is linked, if the call did not fail on a connection that lives. -/
theorem Stage.After.linked {n : NewTransfer} {stage : Stage} {xs : List Exchange} {x : Exchange}
    {link : Option Link} (h : stage.After n (xs ++ [x]))
    (hlink : x.failed = false → link = some .alive) : stage.Linked link := by
  generalize hxs : xs ++ [x] = ys at h
  cases h with
  | failing hs remedy cause => trivial
  | going hs =>
      subst hxs
      have hfailed : x.failed = false := by
        have hany := Stage.failed_of_exchanges hs
        rw [List.any_append, Bool.or_eq_false_iff] at hany
        simpa using hany.2
      cases stage with
      | beginning => exact absurd (Option.some.inj hs) (by simp)
      | rollingBack cause => cases hs
      | _ => exact hlink hfailed

/-- **How a transfer over a database ends,** by its calls before a rollback: it is completed, or a
call failed. A failed rollback is told together with the failure, but never after a commit. -/
inductive Concluded (n : NewTransfer) : List Exchange → Outcome → Prop
  | completed (r : Receipt) : Concluded n (r.exchanges n ++ [.done .commit ()]) (.completed r)
  | failed {s : Stage} {xs : List Exchange} (h : s.exchanges? n = some xs) (cause e : LedgerError)
      (he : e = cause ∨ s.call n ≠ .commit ∧
        ∃ reason, e = cause.withRollbackFailure (.rollbackFailure reason)) :
      Concluded n (xs ++ [.lost (s.call n) cause]) (.failed e)

namespace Database.Session

variable {n : NewTransfer} {s s₀ s' : Session}

/-- Where a transfer stands that is under way, and what was said for it since the session was found
in a state. -/
structure Underway (n : NewTransfer) (s₀ : Session) (r : Run) (s : Session) : Prop where
  request : r.request = n
  faults : r.faults = []
  linked : r.stage.Linked (s.link? engine)
  talk : ∃ xs, r.stage.After n xs ∧ s₀.Told xs ∧ Said s₀ (xs.map Exchange.statement) s

/-- How a transfer has ended, and what was said for it. -/
structure Over (n : NewTransfer) (s₀ : Session) (outcome : Outcome) (s : Session) : Prop where
  idle : s.link? engine = none
  talk : ∃ xs k, Concluded n xs outcome ∧ s₀.Told xs ∧
    Said s₀ (xs.map Exchange.statement ++ List.replicate k .rollback) s

theorem Said.concat {xs : List Exchange} {x : Exchange} {rollbacks : List Statement}
    (h : Said s₀ (xs.map Exchange.statement) s) (h' : Said s (x.statement :: rollbacks) s') :
    Said s₀ ((xs ++ [x]).map Exchange.statement ++ rollbacks) s' := by
  have hboth := h.trans h'
  rw [List.map_append, List.append_assoc]
  exact hboth

section Leads

variable {answered : List Call} {stage : Stage} {xs : List Exchange}

/-- What the begin of a transfer leads to. -/
theorem leads_begin (hlink : s.link? engine = none) (hsaid : Said s₀ [] s) :
    Store.Leads (Underway n s₀) (fun _ _ => False) (Over n s₀) ⟨n, [], .beginning, answered⟩
      (some (s.begin engine).1, (s.begin engine).2) := by
  obtain ⟨hfits, hlinked⟩ := store_begin hlink
  have htold : s₀.Told [⟨.begin, (s.begin engine).1⟩] := (told_nil s₀).concat hsaid hfits
  have hbegun : Said s₀ [.begin] (s.begin engine).2 := hsaid.trans (said_begin s engine)
  cases hanswer : (s.begin engine).1 with
  | ok u =>
      rw [hanswer] at hlinked htold
      exact ⟨rfl, rfl, hlinked, _, .going rfl, htold, hbegun⟩
  | error e =>
      rw [hanswer] at hlinked htold
      exact ⟨hlinked, _, 0, .failed (s := .beginning) rfl e e (.inl rfl), htold, hbegun⟩

/-- What a call inside the unit of work of a transfer leads to. -/
theorem leads_inside (representable : n.amount ≠ Amount.least)
    (hc : (stage.call n).remedy = [.rollback]) (hlink : s.link? engine = some .alive)
    (hstage : stage.After n xs) (htold : s₀.Told xs)
    (hsaid : Said s₀ (xs.map Exchange.statement) s) :
    Store.Leads (Underway n s₀) (fun _ _ => False) (Over n s₀) ⟨n, [], stage, answered⟩
      ((store engine).perform (stage.call n) s) := by
  obtain ⟨a, s', hperform, hfits, hsaid', halive⟩ := store_inside hc hlink
  have hled := hstage.resume representable a
  rw [hperform]
  unfold Store.Leads
  dsimp only
  cases hresume : stage.resume n a with
  | inl next =>
      rw [hresume] at hled
      refine ⟨rfl, rfl, Stage.After.linked hled halive, _, hled, htold.concat hsaid hfits, ?_⟩
      have hconcat := hsaid.concat (x := ⟨stage.call n, a⟩) hsaid'
      rwa [List.append_nil] at hconcat
  | inr outcome =>
      rw [hresume] at hled
      rw [Outcome.After.remedy hled] at hc
      cases hc

/-- What the commit of a transfer leads to. -/
theorem leads_commit {receipt : Receipt} (hlink : s.link? engine = some .alive)
    (htold : s₀.Told (receipt.exchanges n))
    (hsaid : Said s₀ ((receipt.exchanges n).map Exchange.statement) s) :
    Store.Leads (Underway n s₀) (fun _ _ => False) (Over n s₀)
      ⟨n, [], .committing receipt, answered⟩ (some (s.commit engine).1, (s.commit engine).2) := by
  obtain ⟨hfits, k, hfinished⟩ := store_commit hlink
  have hidle : (s.commit engine).2.link? engine = none :=
    link?_finish_self s engine .commit Failure.whileCommitting
  have htold' := htold.concat hsaid hfits
  have hsaid' := hsaid.concat (x := ⟨.commit, (s.commit engine).1⟩) hfinished
  cases hanswer : (s.commit engine).1 with
  | ok u =>
      rw [hanswer] at htold' hsaid'
      exact ⟨hidle, _, k, .completed receipt, htold', hsaid'⟩
  | error e =>
      rw [hanswer] at htold' hsaid'
      exact ⟨hidle, _, k, .failed (s := .committing receipt) rfl e e (.inl rfl), htold', hsaid'⟩

/-- What the rollback of a transfer leads to. -/
theorem leads_rollback {cause : LedgerError} (hstage : stage.exchanges? n = some xs)
    (hc : (stage.call n).remedy = [.rollback])
    (htold : s₀.Told (xs ++ [.lost (stage.call n) cause]))
    (hsaid : Said s₀ ((xs ++ [Exchange.lost (stage.call n) cause]).map Exchange.statement) s) :
    Store.Leads (Underway n s₀) (fun _ _ => False) (Over n s₀)
      ⟨n, [], .rollingBack cause, answered⟩
      (some (s.rollback engine).1, (s.rollback engine).2) := by
  obtain ⟨hanswer, k, hrolled⟩ := rollback_cases s engine
  have hidle : (s.rollback engine).2.link? engine = none :=
    link?_finish_self s engine .rollback Failure.whileRollingBack
  have hne : stage.call n ≠ .commit := by
    intro hcommit
    rw [hcommit] at hc
    cases hc
  rcases hanswer with hok | ⟨reason, herror⟩
  · rw [hok]
    exact ⟨hidle, _, k, .failed hstage cause cause (.inl rfl), htold, hsaid.trans hrolled⟩
  · rw [herror]
    exact ⟨hidle, _, k, .failed hstage cause _ (.inr ⟨hne, reason, rfl⟩), htold,
      hsaid.trans hrolled⟩

/-- **What each call of a transfer leads to.** -/
theorem leads_answer (representable : n.amount ≠ Amount.least) {r : Run} (h : Underway n s₀ r s) :
    Store.Leads (Underway n s₀) (fun _ _ => False) (Over n s₀) r ((store engine).answer r s) := by
  obtain ⟨request, faults, stage, answered⟩ := r
  obtain ⟨rfl, rfl, hlinked, xs, hstage, htold, hsaid⟩ := h
  -- After a failure the only call left is the rollback, which may find no connection any more.
  cases hstage with
  | failing hs remedy cause => exact leads_rollback hs remedy htold hsaid
  | going hs =>
      cases stage with
      | rollingBack cause => cases hs
      | beginning =>
          obtain rfl := Option.some.inj hs
          exact leads_begin hlinked hsaid
      | committing receipt =>
          obtain rfl := Option.some.inj hs
          exact leads_commit hlinked htold hsaid
      | _ => exact leads_inside representable rfl hlinked (.going hs) htold hsaid

end Leads

/-- **A transfer over a database ends,** and what it said and how it ended is decided by what the
backend was going to say. -/
theorem concluded_transfer (representable : n.amount ≠ Amount.least)
    (hidle : s.link? engine = none) : ∃ xs k,
      Concluded n xs (s.transfer { request := n }).1.1 ∧ s.Told xs ∧
      (s.transfer { request := n }).2.sent =
        s.sent ++ (xs.map Exchange.statement ++ List.replicate k .rollback) := by
  have hstart : Underway n s { request := n } s :=
    ⟨rfl, rfl, hidle, [], .going rfl, told_nil s, .refl s⟩
  have hends := Store.run_satisfies (fun r s' h => leads_answer (s := s') representable h) hstart
  rw [Store.run_eq_complete (store_prompt engine)] at hends
  -- The unit of work has ended with the transfer, so giving it up says nothing more.
  obtain ⟨hover, xs, k, hconcluded, htold, hsaid⟩ := hends
  have hsent := (hsaid.trans (said_drop_none hover)).sent
  rw [List.append_nil] at hsent
  exact ⟨xs, k, hconcluded, htold, hsent⟩

end Database.Session

end DoubleEntry
