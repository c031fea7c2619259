import DoubleEntry.Proofs.Counted
import DoubleEntry.Proofs.Timing
set_option autoImplicit false

/-! # Traffic with a database

In a session each transfer ends before anything else is done. Here transfers are under way next to
each other and next to everything else that a session is asked for (`Traffic`): each of them waits
for the answer to a call, and may be cancelled while it waits. One that is answered call by call
ends as if it were run at once (`Traffic.alone`).

Every transfer is counted once, when it ends, at a desk and in traffic with a database
(`transfers_accounted_run`).
-/

namespace DoubleEntry

namespace Database

/-- **A session in which transfers are under way.** -/
structure Traffic where
  session : Session := {}
  /-- The transfers that wait for the answer to a call, by their numbers. -/
  underway : List (Nat × Run) := []
  /-- The number that the next request or transfer gets. The number 0 belongs to transfers that are
  carried out at once. -/
  next : Nat := 1
  deriving DecidableEq, Repr

/-- Something that happens in traffic with a database. What the backend is going to say is part of
it. -/
inductive Incident where
  /-- Something is asked for that is done before anything else happens. -/
  | request (verdicts : List Verdict) (r : Request)
  /-- A transfer is started, and waits for the answer to its first call. -/
  | start (n : NewTransfer) (faults : List Fault)
  /-- A transfer gets the answer to its call. -/
  | answer (number : Nat) (verdicts : List Verdict)
  /-- A transfer is cancelled. The database may have done what it was called for. -/
  | cancel (number : Nat) (verdicts : List Verdict) (done : Bool)
  deriving DecidableEq, Repr

namespace Traffic

/-- A transfer ends, and what is left of its unit of work is given up. -/
def finish (t : Traffic) (number : Nat) (session : Session) (ending : Ending) : Traffic :=
  { t with
    session :=
      { session.drop (.call number) with metrics := session.metrics.record ending }
    underway := t.underway.filter fun u => u.1 ≠ number }

/-- A transfer waits for the answer to its next call. -/
def goOn (t : Traffic) (number : Nat) (session : Session) (run : Run) : Traffic :=
  { t with
    session
    underway := t.underway.map fun u => if u.1 = number then (number, run) else u }

/-- **A transfer gets the answer to its call:** its outcome, if it ends after that. -/
def answer (t : Traffic) (number : Nat) (verdicts : List Verdict) : Option Outcome × Traffic :=
  match t.underway.lookup number with
  | none => (none, t)
  | some run =>
      match (Session.store (.call number)).answer run { t.session with verdicts } with
      | (none, session) => (none, t.goOn number session run)
      | (some a, session) =>
          match run.stage.resume run.request a with
          | .inl stage => (none, t.goOn number session { run with stage, answered := run.made })
          | .inr outcome => (some outcome, t.finish number session (.answered outcome))

/-- The session after a transfer is cancelled, up to its unit of work: the timer of an operation that
was called goes out of scope with the call, whether the operation was done or not. -/
def interrupted (s : Session) (number : Nat) (run : Run) (done : Bool) : Session :=
  if done = true then ((Session.store (.call number)).answer run s).2
  else (reached run.faults run.answered run.call).foldl (fun s op => s.dropTimer op.timer?) s

/-- **A transfer is cancelled** while it waits. -/
def cancel (t : Traffic) (number : Nat) (verdicts : List Verdict) (done : Bool) : Traffic :=
  match t.underway.lookup number with
  | none => t
  | some run =>
      t.finish number (interrupted { t.session with verdicts } number run done) .cancelled

/-- What follows from an incident. -/
def after (t : Traffic) : Incident → Traffic
  | .request verdicts r => { t with session := t.session.take verdicts r, next := t.next + 1 }
  | .start n faults =>
      { t with underway := t.underway ++ [(t.next, { request := n, faults })], next := t.next + 1 }
  | .answer number verdicts => (t.answer number verdicts).2
  | .cancel number verdicts done => t.cancel number verdicts done

/-- The transfer that an incident starts, by its number. -/
def startAt (t : Traffic) : Incident → Option Nat
  | .start _ _ | .request _ (.command (.transfer _ _)) => some t.next
  | _ => none

/-- The transfer that ends at an incident, by its number, and how it ends. -/
def endingAt (t : Traffic) : Incident → Option (Nat × Ending)
  | .request verdicts r => (t.session.ended verdicts r).map fun ending => (t.next, ending)
  | .start _ _ => none
  | .answer number verdicts =>
      (t.answer number verdicts).1.map fun outcome => (number, .answered outcome)
  | .cancel number _ _ => (t.underway.lookup number).map fun _ => (number, .cancelled)

/-- The operations that are called up to an incident and end at it. -/
def calledAt (t : Traffic) : Incident → List Operation
  | .request verdicts r => t.session.called verdicts r
  | .start _ _ => []
  | .answer number _ | .cancel number _ _ =>
      match t.underway.lookup number with
      | none => []
      | some run => reached run.faults run.answered run.call

end Traffic

/-- The transfer under way that an incident is about. -/
def Incident.about? : Incident → Option Nat
  | .answer number _ | .cancel number _ _ => some number
  | .request _ _ | .start _ _ => none

namespace Traffic

variable {t : Traffic} {number : Nat} {run : Run} {verdicts : List Verdict} {i : Incident}

/-! ## What an incident does -/

/-- The numbers of the transfers that are under way. -/
def numbers (t : Traffic) : List Nat := t.underway.map Prod.fst

theorem numbers_goOn (t : Traffic) (number : Nat) (session : Session) (run : Run) :
    (t.goOn number session run).numbers = t.numbers := by
  unfold numbers goOn
  dsimp only
  rw [List.map_map]
  refine List.map_congr_left fun u _ => ?_
  by_cases hu : u.1 = number <;> simp [hu]

theorem numbers_finish (t : Traffic) (number : Nat) (session : Session) (ending : Ending) :
    (t.finish number session ending).numbers = t.numbers.filter fun n => n ≠ number := by
  unfold numbers finish
  dsimp only
  rw [List.filter_map]
  rfl

theorem mem_numbers (h : t.underway.lookup number = some run) : number ∈ t.numbers := by
  obtain ⟨l, l', heq, -⟩ := List.lookup_eq_some_iff.1 h
  exact List.mem_map.2 ⟨(number, run), by simp [heq], rfl⟩

/-- **What an incident does** that is about one transfer: nothing if that is not under way. If it
is, the operation that it called is timed, and it goes on or ends. -/
inductive Handles (t : Traffic) (number : Nat) (i : Incident) : Prop where
  | nothing (after : t.after i = t) (called : t.calledAt i = []) (ended : t.endingAt i = none)
  | goesOn {session : Session} {run : Run} (timed : Session.Timed t.session (t.calledAt i) session)
      (after : t.after i = t.goOn number session run) (ended : t.endingAt i = none)
  | ends {session : Session} {ending : Ending} (underway : number ∈ t.numbers)
      (timed : Session.Timed t.session (t.calledAt i) session)
      (after : t.after i = t.finish number session ending)
      (ended : t.endingAt i = some (number, ending))

theorem timed_interrupted (s : Session) (number : Nat) (run : Run) (done : Bool) :
    Session.Timed s (reached run.faults run.answered run.call) (interrupted s number run done) := by
  unfold interrupted
  split
  · exact Session.timed_answer run s (.call number)
  · generalize reached run.faults run.answered run.call = ops
    induction ops generalizing s with
    | nil => exact .refl s
    | cons op ops ih => exact (Session.timed_dropTimer s op).trans (ih (s.dropTimer op.timer?))

theorem handles_answer (t : Traffic) (number : Nat) (verdicts : List Verdict) :
    t.Handles number (.answer number verdicts) := by
  have hafter : t.after (.answer number verdicts) = (t.answer number verdicts).2 := rfl
  have hended : t.endingAt (.answer number verdicts) =
      (t.answer number verdicts).1.map fun outcome => (number, .answered outcome) := rfl
  unfold answer at hafter hended
  cases hl : t.underway.lookup number with
  | none =>
      rw [hl] at hafter hended
      exact .nothing hafter (by simp [calledAt, hl]) hended
  | some run =>
      rw [hl] at hafter hended
      have hcalled : t.calledAt (.answer number verdicts) =
          reached run.faults run.answered run.call := by simp [calledAt, hl]
      have htimed := Session.timed_answer run { t.session with verdicts } (.call number)
      rw [← hcalled] at htimed
      dsimp only at hafter hended
      generalize (Session.store (.call number)).answer run { t.session with verdicts } = x
        at htimed hafter hended
      obtain ⟨_ | a, session⟩ := x
      · exact .goesOn htimed hafter hended
      · dsimp only at hafter hended
        cases hs : run.stage.resume run.request a with
        | inl stage =>
            rw [hs] at hafter hended
            exact .goesOn htimed hafter hended
        | inr outcome =>
            rw [hs] at hafter hended
            exact .ends (mem_numbers hl) htimed hafter hended

theorem handles_cancel (t : Traffic) (number : Nat) (verdicts : List Verdict) (done : Bool) :
    t.Handles number (.cancel number verdicts done) := by
  have hafter : t.after (.cancel number verdicts done) = t.cancel number verdicts done := rfl
  have hended : t.endingAt (.cancel number verdicts done) =
      (t.underway.lookup number).map fun _ => (number, .cancelled) := rfl
  unfold cancel at hafter
  cases hl : t.underway.lookup number with
  | none =>
      rw [hl] at hafter hended
      exact .nothing hafter (by simp [calledAt, hl]) hended
  | some run =>
      rw [hl] at hafter hended
      have hcalled : t.calledAt (.cancel number verdicts done) =
          reached run.faults run.answered run.call := by simp [calledAt, hl]
      have htimed := timed_interrupted { t.session with verdicts } number run done
      rw [← hcalled] at htimed
      exact .ends (mem_numbers hl) htimed hafter hended

theorem Handles.next_after (h : t.Handles number i) : (t.after i).next = t.next := by
  cases h with
  | nothing hafter => rw [hafter]
  | goesOn _ hafter => rw [hafter]; rfl
  | ends _ _ hafter => rw [hafter]; rfl

/-! ## What is counted -/

theorem Handles.metrics_after (h : t.Handles number i) : (t.after i).session.metrics =
    (t.session.metrics.timeAll (t.calledAt i)).recordAll
      ((t.endingAt i).map Prod.snd).toList := by
  cases h with
  | nothing hafter hcalled hended =>
      rw [hafter, hcalled, hended]
      rfl
  | goesOn htimed hafter hended =>
      rw [hafter, hended]
      exact htimed
  | ends _ htimed hafter hended =>
      rw [hafter, hended]
      exact congrArg (Metrics.record · _) htimed

/-- **An incident counts the operations that end at it, and how a transfer ends at it.** -/
theorem metrics_after (t : Traffic) (i : Incident) : (t.after i).session.metrics =
    (t.session.metrics.timeAll (t.calledAt i)).recordAll ((t.endingAt i).map Prod.snd).toList := by
  cases i with
  | request verdicts r =>
      have htake := t.session.metrics_take verdicts r
      unfold endingAt
      dsimp only
      rw [Option.map_map]
      cases hended : t.session.ended verdicts r <;> rw [hended] at htake <;> exact htake
  | start n faults => rfl
  | answer number verdicts => exact (t.handles_answer number verdicts).metrics_after
  | cancel number verdicts done => exact (t.handles_cancel number verdicts done).metrics_after

/-! ## Every transfer ends once -/

/-- Transfers are told apart by their numbers, and new ones get new numbers. -/
structure Numbered (t : Traffic) : Prop where
  distinct : t.numbers.Nodup
  below : ∀ n ∈ t.numbers, n < t.next

theorem Handles.numbered (h : t.Handles number i) (hn : t.Numbered) : (t.after i).Numbered := by
  have hnext := h.next_after
  cases h with
  | nothing hafter => rwa [hafter]
  | goesOn _ hafter =>
      rw [hafter] at hnext ⊢
      constructor
      · rw [numbers_goOn]
        exact hn.distinct
      · rw [numbers_goOn, hnext]
        exact hn.below
  | ends _ _ hafter =>
      rw [hafter] at hnext ⊢
      constructor
      · rw [numbers_finish]
        exact hn.distinct.filter _
      · rw [numbers_finish, hnext]
        exact fun n hmem => hn.below n (List.mem_filter.1 hmem).1

theorem Numbered.after (h : t.Numbered) (i : Incident) : (t.after i).Numbered := by
  cases i with
  | request verdicts r => exact ⟨h.distinct, fun n hn => (h.below n hn).trans (Nat.lt_succ_self _)⟩
  | start n faults =>
      have hnumbers : (t.after (.start n faults)).numbers = t.numbers ++ [t.next] := List.map_append
      have hnew : t.next ∉ t.numbers := fun hmem => absurd (h.below _ hmem) (Nat.lt_irrefl _)
      constructor
      · rw [hnumbers]
        exact List.nodup_append.2 ⟨h.distinct, List.nodup_singleton _, fun m hm k hk heq =>
          hnew (by rwa [← List.mem_singleton.1 hk, ← heq])⟩
      · intro m hm
        rw [hnumbers] at hm
        rcases List.mem_append.1 hm with hold | hnew
        · exact (h.below m hold).trans (Nat.lt_succ_self _)
        · rw [List.mem_singleton.1 hnew]
          exact Nat.lt_succ_self _
  | answer number verdicts => exact (t.handles_answer number verdicts).numbered h
  | cancel number verdicts done => exact (t.handles_cancel number verdicts done).numbered h

/-- Of the transfers that were under way, only the one that an incident is about ends at it. -/
theorem Handles.once (h : t.Handles number i) (hn : t.Numbered) :
    (((t.endingAt i).map Prod.fst).toList ++ (t.after i).numbers).Perm t.numbers := by
  cases h with
  | nothing hafter _ hended =>
      rw [hafter, hended]
      exact .refl _
  | goesOn _ hafter hended =>
      rw [hafter, hended]
      exact .of_eq (t.numbers_goOn number _ _)
  | ends hunderway _ hafter hended =>
      rw [hafter, hended, numbers_finish]
      exact perm_cons_filter_ne hn.distinct hunderway

/-- **A transfer that is under way or is started** has ended after an incident or is under way. -/
theorem Numbered.once (h : t.Numbered) (i : Incident) :
    (((t.endingAt i).map Prod.fst).toList ++ (t.after i).numbers).Perm
      (t.numbers ++ (t.startAt i).toList) := by
  cases i with
  | request verdicts r =>
      cases r with
      | healthCheck => exact .of_eq (List.append_nil _).symm
      | command c =>
          cases c with
          | transfer n faults =>
              -- It ends at the incident at which it is started.
              show ([t.next] ++ t.numbers).Perm (t.numbers ++ [t.next])
              exact List.perm_append_comm
          | _ => exact .of_eq (List.append_nil _).symm
  | start n faults => exact .of_eq List.map_append
  | answer number verdicts =>
      exact ((t.handles_answer number verdicts).once h).trans (.of_eq (List.append_nil _).symm)
  | cancel number verdicts done =>
      exact ((t.handles_cancel number verdicts done).once h).trans (.of_eq (List.append_nil _).symm)

theorem concerns {n : Nat} {ending : Ending} (h : t.endingAt i = some (n, ending)) :
    t.startAt i = some n ∨ i.about? = some n := by
  cases i with
  | request verdicts r =>
      obtain ⟨ending', hended, heq⟩ := Option.map_eq_some_iff.1 h
      obtain rfl := (Prod.mk.inj heq).1
      cases r with
      | healthCheck => exact nomatch hended
      | command c =>
          cases c with
          | transfer n faults => exact .inl rfl
          | _ => exact nomatch hended
  | start n faults => exact nomatch h
  | answer number verdicts =>
      obtain ⟨outcome, -, heq⟩ := Option.map_eq_some_iff.1 h
      obtain rfl := (Prod.mk.inj heq).1
      exact .inr rfl
  | cancel number verdicts done =>
      obtain ⟨run, -, heq⟩ := Option.map_eq_some_iff.1 h
      obtain rfl := (Prod.mk.inj heq).1
      exact .inr rfl

theorem next_le_after (t : Traffic) (i : Incident) : t.next ≤ (t.after i).next := by
  cases i with
  | request verdicts r => exact Nat.le_succ _
  | start n faults => exact Nat.le_succ _
  | answer number verdicts => exact (t.handles_answer number verdicts).next_after.ge
  | cancel number verdicts done => exact (t.handles_cancel number verdicts done).next_after.ge

theorem startAt_eq_some {n : Nat} (h : t.startAt i = some n) :
    n = t.next ∧ t.next < (t.after i).next := by
  unfold startAt at h
  split at h
  · exact ⟨(Option.some.inj h).symm, Nat.lt_succ_self _⟩
  · exact ⟨(Option.some.inj h).symm, Nat.lt_succ_self _⟩
  · exact nomatch h

/-- Traffic, as far as its transfers are counted. -/
def monitor : Monitor Traffic Incident where
  after := after
  metrics t := t.session.metrics
  underway := numbers
  next := next
  startAt := startAt
  about := Incident.about?
  endingAt := endingAt

theorem monitor_sound : monitor.Sound Numbered where
  after h i := h.after i
  counted t i := by
    show (t.after i).session.metrics.ofTransfers =
      (t.session.metrics.recordAll ((t.endingAt i).map Prod.snd).toList).ofTransfers
    rw [metrics_after, Metrics.ofTransfers_recordAll, Metrics.ofTransfers_recordAll,
      Metrics.ofTransfers_timeAll]
  once h i := h.once i
  concerns _ := concerns
  next_le := next_le_after
  numbered := startAt_eq_some

/-! ## A transfer that is alone -/

/-- The traffic after some incidents, one after the other. -/
def afterAll (t : Traffic) (is : List Incident) : Traffic := is.foldl after t

/-- Requests alone are what a session takes. -/
theorem session_requests (t : Traffic) (requests : List (List Verdict × Request)) :
    (t.afterAll (requests.map fun request => .request request.1 request.2)).session =
      t.session.takeAll requests := by
  induction requests generalizing t with
  | nil => rfl
  | cons request requests ih => exact ih (t.after (.request request.1 request.2))

theorem lookup_goOn (h : t.underway.lookup number = some run) (session : Session) (run' : Run) :
    (t.goOn number session run').underway.lookup number = some run' := by
  obtain ⟨l, l', heq, hl⟩ := List.lookup_eq_some_iff.1 h
  refine List.lookup_eq_some_iff.2 ⟨l, l'.map fun u => if u.1 = number then (number, run') else u,
    ?_, hl⟩
  -- Nothing that stands before the transfer has its number.
  have hbefore : (l.map fun u => if u.1 = number then (number, run') else u) = l := by
    conv_rhs => rw [← List.map_id l]
    refine List.map_congr_left fun u hu => ?_
    have hne : u.1 ≠ number := (bne_iff_ne.1 (hl u hu)).symm
    rw [if_neg hne]
    rfl
  unfold goOn
  dsimp only
  rw [heq, List.map_append, List.map_cons, hbefore, if_pos rfl]

theorem finish_goOn (t : Traffic) (number : Nat) (session session' : Session) (run : Run)
    (ending : Ending) :
    (t.goOn number session run).finish number session' ending =
      t.finish number session' ending := by
  have hsame : (t.goOn number session run).underway.filter (fun u => u.1 ≠ number) =
      t.underway.filter fun u => u.1 ≠ number := by
    unfold goOn
    dsimp only
    induction t.underway with
    | nil => rfl
    | cons u us ih =>
        rw [List.map_cons]
        by_cases hu : u.1 = number
        · rw [if_pos hu, List.filter_cons_of_neg (by simp), List.filter_cons_of_neg (by simp [hu]),
            ih]
        · rw [if_neg hu, List.filter_cons_of_pos (by simp [hu]),
            List.filter_cons_of_pos (by simp [hu]), ih]
  unfold finish
  rw [hsame]
  rfl

/-- **A transfer that gets its answers one after the other,** with nothing in between, ends as if it
were run at once. -/
theorem alone {fuel : Nat} {outcome : Outcome} {made : List Call} {session : Session}
    (h : t.underway.lookup number = some run)
    (hrun : (Session.store (.call number)).runFor fuel run { t.session with verdicts } =
      (.ended outcome made, session)) :
    ∃ scripts : List (List Verdict),
      t.afterAll (scripts.map fun verdicts => .answer number verdicts) =
        t.finish number session (.answered outcome) := by
  -- An answer that does not end the transfer leaves it with less fuel to go, and under way still.
  induction fuel generalizing t run verdicts with
  | zero => cases (Prod.mk.inj hrun).1
  | succ fuel ih =>
      have hanswer : t.after (.answer number verdicts) = (t.answer number verdicts).2 := rfl
      unfold answer at hanswer
      rw [h] at hanswer
      unfold Store.runFor at hrun
      dsimp only at hanswer
      generalize (Session.store (.call number)).answer run { t.session with verdicts } = x
        at hrun hanswer
      obtain ⟨_ | a, s₁⟩ := x
      · cases (Prod.mk.inj hrun).1
      · dsimp only at hrun hanswer
        cases hs : run.stage.resume run.request a with
        | inl stage =>
            rw [hs] at hrun hanswer
            dsimp only at hrun hanswer
            -- What the backend goes on to say is in the state of the session that is left.
            obtain ⟨scripts, hscripts⟩ := ih (lookup_goOn h s₁ _) hrun
            refine ⟨verdicts :: scripts, ?_⟩
            rw [finish_goOn] at hscripts
            show (t.after (.answer number verdicts)).afterAll _ = _
            rw [hanswer]
            exact hscripts
        | inr ending =>
            rw [hs] at hrun hanswer
            obtain rfl := (Advance.ended.inj (Prod.mk.inj hrun).1).1
            obtain rfl := (Prod.mk.inj hrun).2
            exact ⟨[verdicts], hanswer⟩

end Traffic

end Database

/-! ## The main result -/

/-- **Every transfer is counted once,** when it ends, and nothing else is counted about transfers:
at a desk and in traffic with a database, in every run. -/
theorem transfers_accounted_run :
    (∀ nonNegative es, Desk.monitor.Accounted (Desk.opening nonNegative) es) ∧
    ∀ mostUnits is, Database.Traffic.monitor.Accounted { session := { mostUnits } } is := by
  refine ⟨Desk.accounted_run, fun mostUnits is => ?_⟩
  have hstart : Database.Traffic.Numbered { session := { mostUnits } } := ⟨List.nodup_nil, nofun⟩
  exact Database.Traffic.monitor_sound.accounted hstart rfl rfl is

end DoubleEntry
