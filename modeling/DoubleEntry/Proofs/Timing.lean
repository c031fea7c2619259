import DoubleEntry.Proofs.Classification
import DoubleEntry.Proofs.Counting
import DoubleEntry.Proofs.Exchanges
set_option autoImplicit false

/-! # What is timed

An operation on a database is timed once, whatever comes of it, and nothing else is timed: its timer
is either stopped, and then has nothing left to observe when it goes out of scope, or it goes out of
scope while it still runs (`Session.timed_conclude`). From one state of a session to another some
operations were called (`Session.Timed`); the calls of a transfer are operations up to where it
stands (`NewTransfer.operations`), as far as nothing was put in the place of a call.
-/

namespace DoubleEntry

open Database

/-! ## Labels and timers -/

namespace Database

/-- The label under which each operation is timed. Health checks are not timed. -/
inductive Operation.Labelled : Operation → String → Prop where
  | createTransfer (n : NewTransfer) : Labelled (.createTransfer n) "create_transfer"
  | createEntry (n : NewEntry) : Labelled (.createEntry n) "create_entry"
  | addBalance (account delta : Int) : Labelled (.addBalance account delta) "add_account_balance"
  | createAccount (n : NewAccount) : Labelled (.createAccount n) "create_account"
  | getAccount (id : Int) : Labelled (.getAccount id) "get_account"
  | listAccounts (page : Page) : Labelled (.listAccounts page) "list_accounts"
  | updateAccount (id balance : Int) : Labelled (.updateAccount id balance) "update_account"
  | deleteAccount (id : Int) : Labelled (.deleteAccount id) "delete_account"
  | getEntry (id : Int) : Labelled (.getEntry id) "get_entry"
  | listEntries (account : Int) (page : Page) : Labelled (.listEntries account page) "list_entries"
  | getTransfer (id : Int) : Labelled (.getTransfer id) "get_transfer"
  | listTransfers (source target : Int) (page : Page) :
      Labelled (.listTransfers source target page) "list_transfers"

theorem Operation.label?_eq_some_iff {op : Operation} {label : String} :
    op.label? = some label ↔ op.Labelled label := by
  constructor
  · intro h
    cases op with
    | healthCheck => cases h
    | _ =>
        obtain rfl := Option.some.inj h
        constructor
  · rintro ⟨⟩ <;> rfl

instance (op : Operation) (label : String) : Decidable (op.Labelled label) :=
  decidable_of_iff _ Operation.label?_eq_some_iff

end Database

/-! ## Metrics -/

namespace Metrics

/-- Counts that operations were timed, one after the other. -/
def timeAll (m : Metrics) (ops : List Operation) : Metrics :=
  (ops.filterMap Operation.label?).foldl recordQuery m

variable (m : Metrics) (ops ops' : List Operation)

theorem timeAll_append : m.timeAll (ops ++ ops') = (m.timeAll ops).timeAll ops' := by
  unfold timeAll
  rw [List.filterMap_append, List.foldl_append]

variable {op : Operation} {label : String}

theorem timeAll_cons_none (h : op.label? = none) : m.timeAll (op :: ops) = m.timeAll ops := by
  unfold timeAll
  rw [List.filterMap_cons_none h]

theorem timeAll_cons_some (h : op.label? = some label) :
    m.timeAll (op :: ops) = (m.recordQuery label).timeAll ops := by
  unfold timeAll
  rw [List.filterMap_cons_some h]
  rfl

/-- Each operation is counted under its own label. -/
theorem count_timeAll (label : String) : (m.timeAll ops).queries.count label =
    m.queries.count label + ops.countP fun op => op.Labelled label := by
  simp only [← Operation.label?_eq_some_iff]
  induction ops generalizing m with
  | nil => rfl
  | cons op ops ih =>
      cases hlabel : op.label? with
      | none => rw [timeAll_cons_none m ops hlabel, ih, List.countP_cons_of_neg (by simp [hlabel])]
      | some l =>
          rw [timeAll_cons_some m ops hlabel, ih, List.countP_cons]
          simp only [recordQuery, Tally.count_bump, hlabel, Option.some.injEq, decide_eq_true_eq]
          omega

/-- Timing operations counts nothing else. -/
theorem ofTransfers_timeAll : (m.timeAll ops).ofTransfers = m.ofTransfers := by
  unfold timeAll
  induction ops.filterMap Operation.label? generalizing m with
  | nil => rfl
  | cons label labels ih => exact ih (m.recordQuery label)

end Metrics

/-! ## The calls of a transfer -/

/-- The operation that a call is. Beginning a transaction and ending it are none. -/
def Call.operation? : Call → Option Operation
  | .createTransfer n => some (.createTransfer n)
  | .createEntry n => some (.createEntry n)
  | .addBalance account delta => some (.addBalance account delta)
  | .begin | .commit | .rollback => none

/-- The operations that a call comes to after others: none if a fault is put in its place. -/
def reached (faults : List Fault) (before : List Call) (c : Call) : List Operation :=
  if (faultOf? faults before c).isNone then c.operation?.toList else []

/-- **The operations that calls come to** which were made after others. -/
def operationsOf (faults : List Fault) (before : List Call) : List Call → List Operation
  | [] => []
  | c :: rest => reached faults before c ++ operationsOf faults (before ++ [c]) rest

theorem operationsOf_concat (faults : List Fault) (before calls : List Call) (c : Call) :
    operationsOf faults before (calls ++ [c]) =
      operationsOf faults before calls ++ reached faults (before ++ calls) c := by
  induction calls generalizing before with
  | nil => simp [operationsOf]
  | cons d calls ih =>
      rw [List.cons_append, operationsOf, ih, operationsOf, List.append_assoc, List.append_assoc,
        List.singleton_append]

theorem reached_sublist (faults : List Fault) (before : List Call) (c : Call) :
    (reached faults before c).Sublist c.operation?.toList := by
  unfold reached
  split
  · exact .refl _
  · exact List.nil_sublist _

/-- Without faults each call is made. -/
theorem operationsOf_nil (before calls : List Call) :
    operationsOf [] before calls = calls.filterMap Call.operation? := by
  induction calls generalizing before with
  | nil => rfl
  | cons c calls ih =>
      rw [operationsOf, ih]
      cases hc : c.operation? with
      | none => simp [reached, faultOf?, hc]
      | some op => simp [reached, faultOf?, hc]

theorem operationsOf_sublist (faults : List Fault) (before calls : List Call) :
    (operationsOf faults before calls).Sublist (calls.filterMap Call.operation?) := by
  induction calls generalizing before with
  | nil => exact .refl _
  | cons c calls ih =>
      have hcons : (c :: calls).filterMap Call.operation? =
          c.operation?.toList ++ calls.filterMap Call.operation? := by
        cases hc : c.operation? <;> simp [hc]
      rw [operationsOf, hcons]
      exact (reached_sublist faults before c).append (ih _)

/-- **The operations of a transfer.** -/
def NewTransfer.operations (n : NewTransfer) : List Operation :=
  [.createTransfer n, .createEntry ⟨n.source, -n.amount⟩, .createEntry ⟨n.target, n.amount⟩,
    .addBalance n.adjustments.1.account n.adjustments.1.delta,
    .addBalance n.adjustments.2.account n.adjustments.2.delta]

theorem NewTransfer.operations_eq (n : NewTransfer) :
    n.plan.filterMap Call.operation? = n.operations := by
  unfold plan
  rw [groundwork_eq]
  rfl

namespace Run

/-- The calls of a transfer so far are those of the plan, in its order, apart from the rollback. -/
def Planned (r : Run) : Prop :=
  (r.answered.filter fun c => c ≠ .rollback).Sublist (r.request.plan.take (8 - r.stage.remaining))

/-- The next call of a transfer is the next one of the plan. -/
theorem take_plan (r : Run) (h : r.call ≠ .rollback) :
    r.request.plan.take (9 - r.stage.remaining) =
      r.request.plan.take (8 - r.stage.remaining) ++ [r.call] := by
  obtain ⟨n, faults, stage, answered⟩ := r
  unfold NewTransfer.plan
  rw [NewTransfer.groundwork_eq]
  cases stage with
  | rollingBack cause => exact absurd rfl h
  | _ => rfl

theorem Planned.made {r : Run} (h : r.Planned) : (r.made.filter fun c => c ≠ .rollback).Sublist
    (r.request.plan.take (9 - r.stage.remaining)) := by
  unfold Run.made
  rw [List.filter_append]
  -- A rollback is no call of the plan; any other call is the next one of it.
  by_cases hc : r.call = .rollback
  · have hnone : [r.call].filter (fun c => c ≠ .rollback) = [] := by simp [hc]
    rw [hnone, List.append_nil]
    exact h.trans (List.take_prefix_take_left (by omega)).sublist
  · have hone : [r.call].filter (fun c => c ≠ .rollback) = [r.call] := by simp [hc]
    rw [hone, r.take_plan hc]
    exact h.append (.refl _)

/-- A transfer goes on in the order of the plan. -/
theorem Planned.resume {r : Run} (h : r.Planned) {answer : Except LedgerError r.call.Answer}
    {stage : Stage} (hs : r.stage.resume r.request answer = .inl stage) :
    Run.Planned { r with stage, answered := r.made } := by
  have hless := Stage.remaining_resume hs
  exact h.made.trans (List.take_prefix_take_left (by dsimp only; omega)).sublist

theorem planned_start (n : NewTransfer) (faults : List Fault) :
    Run.Planned { request := n, faults } :=
  List.nil_sublist _

/-- The operations that a transfer came to are among those of its plan, in their order. -/
theorem Planned.operations {r : Run} (h : r.Planned) :
    (operationsOf r.faults [] r.made).Sublist r.request.operations := by
  -- Leaving out the rollback leaves out no operation.
  have hcalls : (r.made.filter fun c => c ≠ .rollback).filterMap Call.operation? =
      r.made.filterMap Call.operation? := by
    rw [List.filterMap_filter]
    refine List.filterMap_congr fun c _ => ?_
    cases c <;> simp [Call.operation?]
  have hplan := (h.made.trans (List.take_sublist _ _)).filterMap Call.operation?
  rw [hcalls, r.request.operations_eq] at hplan
  exact (operationsOf_sublist r.faults [] r.made).trans hplan

end Run

namespace Database.Session

variable {s s' s'' : Session} {o : Owner} {ops ops' : List Operation}

/-! ## What the steps of a session time -/

/-- From one state of a session to another the given operations were timed, and nothing else was
counted. -/
def Timed (s : Session) (ops : List Operation) (s' : Session) : Prop :=
  s'.metrics = s.metrics.timeAll ops

namespace Timed

theorem refl (s : Session) : Timed s [] s := rfl

theorem trans (h : Timed s ops s') (h' : Timed s' ops' s'') : Timed s (ops ++ ops') s'' := by
  unfold Timed
  rw [h', h, Metrics.timeAll_append]

/-- Only the metrics matter. -/
theorem congr {t : Session} (h : Timed s ops s') (metrics : t.metrics = s'.metrics) :
    Timed s ops t :=
  metrics.trans h

end Timed

theorem timed_send (s : Session) (statement : Statement) : Timed s [] (s.send statement).2 := rfl

/-- An operation is timed when its timer goes out of scope while it still runs. -/
theorem timed_dropTimer (s : Session) (op : Operation) : Timed s [op] (s.dropTimer op.timer?) := by
  unfold Timed Operation.timer?
  cases hlabel : op.label? with
  | none => exact (Metrics.timeAll_cons_none s.metrics [] hlabel).symm
  | some label => exact (Metrics.timeAll_cons_some s.metrics [] hlabel).symm

/-- A timer that was stopped does not observe its time again when it goes out of scope. -/
theorem dropTimer_stopTimer (s : Session) (op : Operation) :
    (s.stopTimer op.timer?).2.dropTimer (s.stopTimer op.timer?).1 = s.dropTimer op.timer? := by
  unfold Operation.timer?
  cases op.label? <;> rfl

/-- **An operation is timed once,** whether it fails at once or stops its timer. -/
theorem timed_conclude (s : Session) (op : Operation) (v : Verdict) :
    Timed s [op] (s.conclude op op.timer? v).2 := by
  unfold conclude
  split
  · exact timed_dropTimer s op
  · dsimp only
    rw [dropTimer_stopTimer]
    exact timed_dropTimer s op

theorem timed_sendIn (s : Session) (o : Owner) (statement : Statement) :
    Timed s [] (s.sendIn o statement).2 := by
  have hsend := timed_send s statement
  unfold sendIn
  split
  · split
    · rename_i heq
      rw [heq] at hsend
      exact hsend.congr rfl
    · exact hsend
  · exact .refl s

theorem timed_perform (s : Session) (op : Operation) : Timed s [op] (s.perform op).2 :=
  (timed_send s op.statement).trans (timed_conclude _ op _)

theorem timed_performIn (s : Session) (o : Owner) (op : Operation) :
    Timed s [op] (s.performIn o op).2 :=
  (timed_sendIn s o op.statement).trans (timed_conclude _ op _)

theorem timed_begin (s : Session) (o : Owner) : Timed s [] (s.begin o).2 := by
  have hsend := timed_send s .begin
  unfold begin
  split <;> rename_i heq <;> rw [heq] at hsend
  · exact hsend.congr rfl
  · exact hsend
  · exact hsend
  · exact hsend

theorem timed_drop (s : Session) (o : Owner) : Timed s [] (s.drop o) := by
  unfold drop
  split
  · exact (timed_send s .rollback).congr rfl
  · exact (Timed.refl s).congr rfl

theorem timed_finish (s : Session) (o : Owner) (statement : Statement)
    (error : Failure → LedgerError) : Timed s [] (s.finish o statement error).2 := by
  have hsend := timed_sendIn s o statement
  unfold finish
  split <;> rename_i heq <;> rw [heq] at hsend
  · exact hsend.congr rfl
  · exact hsend.trans (timed_drop _ o)

theorem timed_queryReply (s : Session) (q : Query) : Timed s [q.operation] (s.queryReply q).2 := by
  cases q <;> exact timed_perform s _

theorem timed_onUnit (s : Session) (o : Owner) (action : UnitAction) :
    Timed s action.operation?.toList (s.onUnit o action).2 := by
  cases action with
  | createTransfer n => exact timed_performIn s o _
  | createEntry n => exact timed_performIn s o _
  | addBalance account delta => exact timed_performIn s o _
  | commit => exact timed_finish s o _ _
  | rollback => exact timed_finish s o _ _
  | drop => exact timed_drop s o

/-! ## Transfers -/

theorem timed_store (s : Session) (o : Owner) (c : Call) :
    Timed s c.operation?.toList ((store o).perform c s).2 := by
  cases c with
  | begin => exact timed_begin s o
  | createTransfer n => exact timed_performIn s o _
  | createEntry n => exact timed_performIn s o _
  | addBalance account delta => exact timed_performIn s o _
  | commit => exact timed_finish s o _ _
  | rollback => exact timed_finish s o _ _

theorem timed_refuse (s : Session) (o : Owner) (c : Call) :
    Timed s [] ((store o).refuse c s) := by
  cases c with
  | commit => exact timed_drop s o
  | rollback => exact timed_finish s o _ _
  | _ => exact .refl s

/-- A call of a transfer is timed if it is an operation, and reaches the database. -/
theorem timed_answer (r : Run) (s : Session) (o : Owner) :
    Timed s (reached r.faults r.answered r.call) ((store o).answer r s).2 := by
  unfold reached
  rcases (store o).answer_cases r s with ⟨e, hfault, heq⟩ | ⟨hfault, heq⟩
  · rw [hfault, heq]
    exact timed_refuse s o r.call
  · rw [hfault, heq]
    exact timed_store s o r.call

/-- A transfer that has come as far as it stands since the session was found in a state, timing its
operations on the way. -/
structure Clocked (n : NewTransfer) (faults : List Fault) (s₀ : Session) (r : Run) (s : Session) :
    Prop where
  asked : r.request = n
  given : r.faults = faults
  planned : r.Planned
  timed : Timed s₀ (operationsOf faults [] r.answered) s

variable {n : NewTransfer} {faults : List Fault} {s₀ : Session} {r : Run} {outcome : Outcome}
  {made : List Call}

theorem Clocked.answer (h : Clocked n faults s₀ r s) (o : Owner) :
    Timed s₀ (operationsOf faults [] r.made) ((store o).answer r s).2 := by
  have hanswer := timed_answer r s o
  rw [h.given] at hanswer
  unfold Run.made
  rw [operationsOf_concat, List.nil_append]
  exact h.timed.trans hanswer

/-- **A transfer that has ended** has timed each of its operations that it came to. -/
theorem Clocked.ended (fuel : Nat) (h : Clocked n faults s₀ r s)
    (hrun : (store o).runFor fuel r s = (.ended outcome made, s')) :
    Timed s₀ (operationsOf faults [] made) s' ∧
      (operationsOf faults [] made).Sublist n.operations := by
  -- Each call that is answered adds its operation, up to the call after which the transfer ends.
  induction fuel generalizing r s with
  | zero => cases (Prod.mk.inj hrun).1
  | succ fuel ih =>
      have hanswer := h.answer o
      unfold Store.runFor at hrun
      generalize (store o).answer r s = x at hrun hanswer
      obtain ⟨_ | a, s₁⟩ := x
      · cases (Prod.mk.inj hrun).1
      · dsimp only at hrun
        cases hs : r.stage.resume r.request a with
        | inl stage =>
            rw [hs] at hrun
            have hnext : Clocked n faults s₀ { r with stage, answered := r.made } s₁ :=
              ⟨h.asked, h.given, h.planned.resume hs, hanswer⟩
            exact ih hnext hrun
        | inr ending =>
            rw [hs] at hrun
            have hmade : r.made = made := (Advance.ended.inj (Prod.mk.inj hrun).1).2
            have hoperations := h.planned.operations
            rw [h.given, h.asked] at hoperations
            rw [← (Prod.mk.inj hrun).2, ← hmade]
            exact ⟨hanswer, hoperations⟩

/-- **A transfer times its operations** before it is counted itself. -/
theorem timed_transfer (s : Session) (n : NewTransfer) (faults : List Fault) :
    let ended := s.transfer { request := n, faults }
    ended.2.metrics =
        (s.metrics.timeAll (operationsOf faults [] ended.1.2)).recordOutcome ended.1.1 ∧
      (operationsOf faults [] ended.1.2).Sublist n.operations := by
  intro ended
  have hstart : Clocked n faults s { request := n, faults } s :=
    ⟨rfl, rfl, Run.planned_start n faults, .refl s⟩
  have hrun := Store.run_eq_complete (store_prompt engine) { request := n, faults } s
  obtain ⟨htimed, hoperations⟩ := hstart.ended _ hrun
  exact ⟨congrArg (Metrics.recordOutcome · ended.1.1) htimed, hoperations⟩

/-! ## What is asked for -/

/-- **The operations that are called** for what a session is asked for: none for a command that is
refused, and those that a transfer comes to. -/
def called (s : Session) (verdicts : List Verdict) : Request → List Operation
  | .healthCheck => [.healthCheck]
  | .command (.transfer n faults) =>
      operationsOf faults [] ({ s with verdicts }.transfer { request := n, faults }).1.2
  | .command c =>
      match ({ s with verdicts }.submit c).1 with
      | .ok _ => c.operation?.toList
      | .error _ => []

/-- The operations that are called for one request after the other. -/
def calledAll (s : Session) : List (List Verdict × Request) → List Operation
  | [] => []
  | (verdicts, r) :: rest => s.called verdicts r ++ (s.take verdicts r).calledAll rest

/-- How the transfer ends that a session is asked for, if it is one. -/
def ended (s : Session) (verdicts : List Verdict) : Request → Option Ending
  | .command (.transfer n faults) =>
      some (.answered ({ s with verdicts }.transfer { request := n, faults }).1.1)
  | _ => none

theorem timed_submit (s : Session) {c : Command} (h : ∀ n faults, c ≠ .transfer n faults) :
    Timed s (match (s.submit c).1 with
      | .ok _ => c.operation?.toList
      | .error _ => []) (s.submit c).2 := by
  cases c with
  | query q => exact timed_queryReply s q
  | createAccount n => exact timed_perform s _
  | updateAccount id balance => exact timed_perform s _
  | deleteAccount id => exact timed_perform s _
  | begin unit =>
      dsimp only [submit]
      cases s.unopenable? unit with
      | some refusal => exact .refl s
      | none => exact timed_begin s _
  | onUnit unit action =>
      dsimp only [submit]
      cases s.unavailable? unit with
      | some refusal => exact .refl s
      | none => exact timed_onUnit s _ action
  | transfer n faults => exact absurd rfl (h n faults)

/-- **What a request adds to the metrics:** the operations that are called for it are timed, and a
transfer is counted when it has ended. -/
theorem metrics_take (s : Session) (verdicts : List Verdict) (r : Request) :
    (s.take verdicts r).metrics =
      (s.metrics.timeAll (s.called verdicts r)).recordAll (s.ended verdicts r).toList := by
  cases r with
  | healthCheck => exact timed_perform { s with verdicts } .healthCheck
  | command c =>
      cases c with
      | transfer n faults => exact (timed_transfer { s with verdicts } n faults).1
      | _ => exact timed_submit { s with verdicts } (by simp)

/-- How often something is timed under a label. -/
def timesOf (s : Session) (label : String) : Nat := s.metrics.queries.count label

/-- One request after the other, each operation that is called is timed under its label. -/
theorem timesOf_takeAll (s : Session) (requests : List (List Verdict × Request)) (label : String) :
    (s.takeAll requests).timesOf label =
      s.timesOf label + (s.calledAll requests).countP fun op => op.Labelled label := by
  induction requests generalizing s with
  | nil => rfl
  | cons request requests ih =>
      have hfirst : (s.take request.1 request.2).timesOf label = s.timesOf label +
          (s.called request.1 request.2).countP fun op => op.Labelled label := by
        unfold timesOf
        rw [metrics_take, Metrics.queries_recordAll, Metrics.count_timeAll]
      show ((s.take request.1 request.2).takeAll requests).timesOf label = _
      rw [ih, hfirst, calledAll, List.countP_append, Nat.add_assoc]

theorem timed_close (s : Session) : Timed s [] s.close := by
  unfold close
  induction s.owners generalizing s with
  | nil => exact .refl s
  | cons o owners ih => exact (timed_drop s o).trans (ih (s.drop o))

/-! ## The main result -/

theorem Timed.timesOf (h : Timed s ops s') (label : String) :
    s'.timesOf label = s.timesOf label + ops.countP fun op => op.Labelled label := by
  unfold Session.timesOf
  rw [h, Metrics.count_timeAll]

/-- **What a transfer adds to the times.** -/
structure TimesTransfer (s : Session) (n : NewTransfer) (faults : List Fault) (made : List Call)
    (s' : Session) : Prop where
  /-- Each operation that the transfer came to is timed once, under its label. -/
  once : ∀ label, s'.timesOf label =
    s.timesOf label + (operationsOf faults [] made).countP fun op => op.Labelled label
  /-- Where nothing is put in the place of a call, these are all its calls that are operations. -/
  reached : faults = [] → operationsOf faults [] made = made.filterMap Call.operation?
  inOrder : (operationsOf faults [] made).Sublist n.operations
  createTransfer : s'.timesOf "create_transfer" ≤ s.timesOf "create_transfer" + 1
  createEntry : s'.timesOf "create_entry" ≤ s.timesOf "create_entry" + 2
  addBalance : s'.timesOf "add_account_balance" ≤ s.timesOf "add_account_balance" + 2
  others : ∀ label, label ∉ ["create_transfer", "create_entry", "add_account_balance"] →
    s'.timesOf label = s.timesOf label

theorem timesTransfer (s : Session) (n : NewTransfer) (faults : List Fault) :
    s.TimesTransfer n faults (s.transfer { request := n, faults }).1.2
      (s.transfer { request := n, faults }).2 := by
  obtain ⟨hmetrics, hinOrder⟩ := timed_transfer s n faults
  generalize s.transfer { request := n, faults } = x at hmetrics hinOrder ⊢
  obtain ⟨⟨outcome, made⟩, s'⟩ := x
  dsimp only at hmetrics hinOrder ⊢
  have honce : ∀ label, s'.timesOf label =
      s.timesOf label + (operationsOf faults [] made).countP fun op => op.Labelled label := by
    intro label
    unfold timesOf
    rw [hmetrics, ← Metrics.count_timeAll]
    cases outcome <;> rfl
  have hle : ∀ label, s'.timesOf label ≤
      s.timesOf label + n.operations.countP fun op => op.Labelled label := by
    intro label
    rw [honce]
    exact Nat.add_le_add_left hinOrder.countP_le _
  have hreached : faults = [] → operationsOf faults [] made = made.filterMap Call.operation? := by
    rintro rfl
    exact operationsOf_nil [] made
  refine ⟨honce, hreached, hinOrder, hle _, hle _, hle _, fun label hlabel => ?_⟩
  -- No operation of a transfer has another label, and times never become fewer.
  have hnone : (n.operations.countP fun op => op.Labelled label) = 0 := by
    simp only [List.mem_cons, List.not_mem_nil, or_false, not_or] at hlabel
    simp only [← Operation.label?_eq_some_iff]
    simp [NewTransfer.operations, Operation.label?, Ne.symm hlabel.1, Ne.symm hlabel.2.1,
      Ne.symm hlabel.2.2]
  have hbound := hle label
  rw [hnone] at hbound
  have hgrows := honce label
  omega

/-- **What is timed in a state of a session.** -/
structure Times (s : Session) : Prop where
  perform : ∀ (op : Operation) label, (s.perform op).2.timesOf label =
    s.timesOf label + if op.Labelled label then 1 else 0
  performIn : ∀ o (op : Operation) label, (s.performIn o op).2.timesOf label =
    s.timesOf label + if op.Labelled label then 1 else 0
  transfer : ∀ n faults, s.TimesTransfer n faults (s.transfer { request := n, faults }).1.2
    (s.transfer { request := n, faults }).2
  healthCheck : s.healthCheck.2.metrics = s.metrics
  begin : ∀ o, (s.begin o).2.metrics = s.metrics
  commit : ∀ o, (s.commit o).2.metrics = s.metrics
  rollback : ∀ o, (s.rollback o).2.metrics = s.metrics
  drop : ∀ o, (s.drop o).metrics = s.metrics
  close : s.close.metrics = s.metrics

theorem times (s : Session) : s.Times where
  perform op label := by
    rw [(timed_perform s op).timesOf, List.countP_singleton]
    simp
  performIn o op label := by
    rw [(timed_performIn s o op).timesOf, List.countP_singleton]
    simp
  transfer := s.timesTransfer
  healthCheck := timed_perform s .healthCheck
  begin := timed_begin s
  commit o := timed_finish s o .commit Failure.whileCommitting
  rollback o := timed_finish s o .rollback Failure.whileRollingBack
  drop := timed_drop s
  close := timed_close s

/-- **Every operation is timed once,** whatever the backend says and whatever is asked for, and
nothing but operations is timed. -/
theorem timed_run :
    (∀ (mostUnits : Nat) (requests : List (List Verdict × Request)) (label : String),
      (({ mostUnits } : Session).takeAll requests).timesOf label =
        (({ mostUnits } : Session).calledAll requests).countP fun op => op.Labelled label) ∧
    ∀ s : Session, s.Times := by
  refine ⟨fun mostUnits requests label => ?_, times⟩
  have hnone : ({ mostUnits } : Session).timesOf label = 0 := rfl
  rw [timesOf_takeAll, hnone, Nat.zero_add]

end Database.Session

end DoubleEntry
