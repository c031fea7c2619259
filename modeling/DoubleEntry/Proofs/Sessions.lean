import DoubleEntry.Database.Session
import Mathlib.Data.List.Basic
set_option autoImplicit false

/-! # What the steps of a session do

Each step of a session is specified by what it does to the connections and by what it says. The
connection of a unit of work changes only by what its owner does; `Session.Said` tells which
statements the backend got from one state of a session to another, so that what the backend says to
them is found at the same places of the script (`Session.Said.verdict`). An operation succeeds or
fails by what the backend says to its statement (`Operation.conclude_eq_ok_iff`,
`Operation.conclude_eq_error`).
-/

namespace DoubleEntry.Database

namespace Session

variable {s s' s'' : Session} {o other : Owner}

/-! ## Connections -/

@[simp] theorem link?_send (s : Session) (statement : Statement) (o : Owner) :
    (s.send statement).2.link? o = s.link? o := rfl

@[simp] theorem link?_dropTimer (s : Session) (timer? : Option Timer) (o : Owner) :
    (s.dropTimer timer?).link? o = s.link? o := by
  cases timer? <;> rfl

@[simp] theorem link?_stopTimer (s : Session) (timer? : Option Timer) (o : Owner) :
    (s.stopTimer timer?).2.link? o = s.link? o := by
  cases timer? <;> rfl

@[simp] theorem link?_conclude (s : Session) (op : Operation) (timer? : Option Timer) (v : Verdict)
    (o : Owner) : (s.conclude op timer? v).2.link? o = s.link? o := by
  unfold conclude
  split
  · exact link?_dropTimer s timer? o
  · dsimp only
    rw [link?_dropTimer, link?_stopTimer]

theorem link?_openUnit_self (h : s.link? o = none) : (s.openUnit o).link? o = some .alive := by
  have hnone : s.units.lookup o = none := h
  simp [link?, openUnit, List.lookup_append, hnone]

theorem link?_openUnit_ne (h : other ≠ o) : (s.openUnit o).link? other = s.link? other := by
  have hother : (other == o) = false := by simpa using h
  simp [link?, openUnit, List.lookup_append, List.lookup_cons, hother]

theorem link?_closeUnit_self (s : Session) (o : Owner) : (s.closeUnit o).link? o = none := by
  refine List.lookup_eq_none_iff.2 fun u hu => ?_
  have hne : u.1 ≠ o := by simpa using (List.mem_filter.1 hu).2
  simpa using hne.symm

theorem link?_closeUnit_ne (h : other ≠ o) : (s.closeUnit o).link? other = s.link? other := by
  unfold link? closeUnit
  dsimp only
  induction s.units with
  | nil => rfl
  | cons u units ih =>
      by_cases hu : u.1 = o
      · have hother : (other == u.1) = false := by simpa [hu] using h
        rw [List.filter_cons_of_neg (by simpa using hu), ih, List.lookup_cons, hother]
      · rw [List.filter_cons_of_pos (by simpa using hu), List.lookup_cons, List.lookup_cons, ih]

theorem link?_loseLink_ne (h : other ≠ o) : (s.loseLink o).link? other = s.link? other := by
  unfold link? loseLink
  dsimp only
  induction s.units with
  | nil => rfl
  | cons u units ih =>
      rw [List.map_cons, List.lookup_cons, ih]
      by_cases hu : u.1 = o
      · have hother : (other == o) = false := by simpa using h
        rw [if_pos hu, List.lookup_cons, hu, hother]
      · rw [if_neg hu, List.lookup_cons]

theorem link?_sendIn_ne (h : other ≠ o) (statement : Statement) :
    (s.sendIn o statement).2.link? other = s.link? other := by
  unfold sendIn
  split
  · split
    · rename_i heq
      have hs := congrArg (fun r => r.2.link? other) heq
      rw [link?_loseLink_ne h]
      exact hs.symm
    · rfl
  · rfl

@[simp] theorem link?_perform (s : Session) (op : Operation) (o : Owner) :
    (s.perform op).2.link? o = s.link? o := by
  unfold perform
  dsimp only
  rw [link?_conclude, link?_send]

theorem link?_performIn_ne (h : other ≠ o) (op : Operation) :
    (s.performIn o op).2.link? other = s.link? other := by
  unfold performIn
  dsimp only
  rw [link?_conclude, link?_sendIn_ne h]

theorem link?_begin_ne (h : other ≠ o) : (s.begin o).2.link? other = s.link? other := by
  have hsend : (s.send .begin).2.link? other = s.link? other := rfl
  unfold begin
  split <;> rename_i heq <;> rw [heq] at hsend
  · rw [link?_openUnit_ne h]
    exact hsend
  · exact hsend
  · exact hsend
  · exact hsend

theorem link?_drop_ne (h : other ≠ o) : (s.drop o).link? other = s.link? other := by
  unfold drop
  split
  · rw [link?_closeUnit_ne h, link?_send]
  · rw [link?_closeUnit_ne h]

/-- After a unit of work was given up there is nothing left of it. -/
theorem link?_drop_self (s : Session) (o : Owner) : (s.drop o).link? o = none := by
  unfold drop
  split
  · exact link?_closeUnit_self _ o
  · exact link?_closeUnit_self _ o

theorem link?_finish_ne (h : other ≠ o) (statement : Statement) (error : Failure → LedgerError) :
    (s.finish o statement error).2.link? other = s.link? other := by
  have hsend := link?_sendIn_ne (s := s) h statement
  unfold finish
  split <;> rename_i heq <;> rw [heq] at hsend
  · rw [link?_closeUnit_ne h]
    exact hsend
  · rw [link?_drop_ne h]
    exact hsend

/-- A unit of work has ended, whatever came of its last statement. -/
theorem link?_finish_self (s : Session) (o : Owner) (statement : Statement)
    (error : Failure → LedgerError) : (s.finish o statement error).2.link? o = none := by
  unfold finish
  split
  · exact link?_closeUnit_self _ o
  · exact link?_drop_self _ o

theorem link?_onUnit_ne (h : other ≠ o) (action : UnitAction) :
    (s.onUnit o action).2.link? other = s.link? other := by
  cases action with
  | createTransfer n => exact link?_performIn_ne h (.createTransfer n)
  | createEntry n => exact link?_performIn_ne h (.createEntry n)
  | addBalance account delta => exact link?_performIn_ne h (.addBalance account delta)
  | commit => exact link?_finish_ne h .commit Failure.whileCommitting
  | rollback => exact link?_finish_ne h .rollback Failure.whileRollingBack
  | drop => exact link?_drop_ne h

theorem link?_queryReply (s : Session) (q : Query) (o : Owner) :
    (s.queryReply q).2.link? o = s.link? o := by
  cases q <;> exact link?_perform s _ o

/-! ## A session over time -/

/-- Between two commands no transfer is under way. -/
theorem link?_submit_engine (h : s.link? engine = none) (c : Command) :
    (s.submit c).2.link? engine = none := by
  have hname : ∀ name, engine ≠ .unit name := by
    intro name hname
    cases hname
  cases c with
  | query q => exact (link?_queryReply s q engine).trans h
  | createAccount n => exact (link?_perform s (.createAccount n) engine).trans h
  | updateAccount id balance => exact (link?_perform s (.updateAccount id balance) engine).trans h
  | deleteAccount id => exact (link?_perform s (.deleteAccount id) engine).trans h
  | begin unit =>
      dsimp only [submit]
      cases s.unopenable? unit with
      | none => exact (link?_begin_ne (hname unit)).trans h
      | some r => exact h
  | onUnit unit action =>
      dsimp only [submit]
      cases s.unavailable? unit with
      | none => exact (link?_onUnit_ne (hname unit) action).trans h
      | some r => exact h
  | transfer n faults => exact link?_drop_self _ engine

end Session

/-- What a session is asked for. -/
inductive Request where
  | command (c : Command)
  | healthCheck
  deriving DecidableEq, Repr

namespace Session

variable {s s' s'' : Session} {o : Owner}

/-- Does what is asked for, with what the backend says to the statements for it. -/
def take (s : Session) (verdicts : List Verdict) : Request → Session
  | .command c => ({ s with verdicts }.submit c).2
  | .healthCheck => { s with verdicts }.healthCheck.2

/-- Does what is asked for, one after the other. -/
def takeAll (s : Session) (requests : List (List Verdict × Request)) : Session :=
  requests.foldl (fun s request => s.take request.1 request.2) s

theorem link?_take_engine (h : s.link? engine = none) (verdicts : List Verdict) (r : Request) :
    (s.take verdicts r).link? engine = none := by
  cases r with
  | command c => exact link?_submit_engine (s := { s with verdicts }) h c
  | healthCheck => exact (link?_perform { s with verdicts } .healthCheck engine).trans h

theorem link?_takeAll_engine (h : s.link? engine = none)
    (requests : List (List Verdict × Request)) : (s.takeAll requests).link? engine = none := by
  induction requests generalizing s with
  | nil => exact h
  | cons request requests ih => exact ih (link?_take_engine h request.1 request.2)

/-! ## What is said -/

/-- What the backend says to the statement after as many others. -/
def verdict (s : Session) (i : Nat) : Verdict := s.verdicts.getD i (.executed {})

/-- From one state of a session to another the backend got the given statements. -/
structure Said (s : Session) (statements : List Statement) (s' : Session) : Prop where
  sent : s'.sent = s.sent ++ statements
  verdicts : s'.verdicts = s.verdicts.drop statements.length

namespace Said

theorem refl (s : Session) : Said s [] s where
  sent := (List.append_nil _).symm
  verdicts := rfl

theorem trans {first second : List Statement} (h : Said s first s') (h' : Said s' second s'') :
    Said s (first ++ second) s'' where
  sent := by rw [h'.sent, h.sent, List.append_assoc]
  verdicts := by rw [h'.verdicts, h.verdicts, List.drop_drop, List.length_append]

/-- What the backend will say stands where the statements that were said end. -/
theorem verdict {statements : List Statement} (h : Said s statements s') (i : Nat) :
    s'.verdict i = s.verdict (statements.length + i) := by
  unfold Session.verdict
  rw [h.verdicts, List.getD_eq_getElem?_getD, List.getD_eq_getElem?_getD, List.getElem?_drop]

/-- What is said depends on nothing but the backend. -/
theorem congr {statements : List Statement} {t : Session} (h : Said s statements s')
    (sent : t.sent = s'.sent) (verdicts : t.verdicts = s'.verdicts) : Said s statements t where
  sent := sent.trans h.sent
  verdicts := verdicts.trans h.verdicts

end Said

theorem said_send (s : Session) (statement : Statement) :
    Said s [statement] (s.send statement).2 where
  sent := rfl
  verdicts := List.drop_one.symm

theorem verdict_send (s : Session) (statement : Statement) :
    (s.send statement).1 = s.verdict 0 := by
  unfold send verdict
  cases s.verdicts <;> rfl

theorem said_begin (s : Session) (o : Owner) : Said s [.begin] (s.begin o).2 := by
  have hsend := said_send s .begin
  unfold begin
  split <;> rename_i heq <;> rw [heq] at hsend
  · exact hsend.congr rfl rfl
  · exact hsend
  · exact hsend
  · exact hsend

/-- Over a connection that lives the backend gets a statement and answers it. -/
theorem sendIn_alive (h : s.link? o = some .alive) (statement : Statement) :
    (s.sendIn o statement).1 = s.verdict 0 ∧ Said s [statement] (s.sendIn o statement).2 ∧
      (s.verdict 0 ≠ .closed → (s.sendIn o statement).2.link? o = some .alive) := by
  have hsaid := said_send s statement
  have hverdict := verdict_send s statement
  unfold sendIn
  rw [h]
  dsimp only
  split
  · rename_i s₁ heq
    rw [heq] at hsaid hverdict
    exact ⟨hverdict, hsaid.congr rfl rfl, fun hne => absurd hverdict.symm hne⟩
  · exact ⟨hverdict, hsaid, fun _ => h⟩

/-- Whatever comes of an operation once its statement was sent, nothing more is said for it. -/
theorem said_conclude (s : Session) (op : Operation) (timer? : Option Timer) (v : Verdict) :
    Said s [] (s.conclude op timer? v).2 := by
  unfold conclude
  cases timer? with
  | none => split <;> exact .refl s
  | some t => split <;> exact (Said.refl s).congr rfl rfl

/-- What an operation answers does not depend on its timer. -/
theorem conclude_fst (s : Session) (op : Operation) (timer? : Option Timer) (v : Verdict) :
    (s.conclude op timer? v).1 = op.conclude v.result := by
  unfold conclude Operation.conclude
  cases op.fetch v.result <;> rfl

/-- **An operation over a connection that lives** is one statement, and is answered by what the
backend says to it. -/
theorem performIn_alive (h : s.link? o = some .alive) (op : Operation) :
    (s.performIn o op).1 = op.conclude (s.verdict 0).result ∧
      Said s [op.statement] (s.performIn o op).2 ∧
      (s.verdict 0 ≠ .closed → (s.performIn o op).2.link? o = some .alive) := by
  obtain ⟨hverdict, hsaid, halive⟩ := sendIn_alive h op.statement
  unfold performIn
  dsimp only
  rw [conclude_fst, hverdict, link?_conclude]
  exact ⟨rfl, hsaid.trans (said_conclude _ op _ _), halive⟩

/-- A unit of work that is given up says at most that it is rolled back. -/
theorem said_drop (s : Session) (o : Owner) :
    ∃ k, Said s (List.replicate k .rollback) (s.drop o) := by
  unfold drop
  split
  · exact ⟨1, (said_send s .rollback).congr rfl rfl⟩
  · exact ⟨0, (Said.refl s).congr rfl rfl⟩

/-- Where no unit of work is open nothing is said to give it up. -/
theorem said_drop_none (h : s.link? o = none) : Said s [] (s.drop o) := by
  unfold drop
  rw [h]
  exact (Said.refl s).congr rfl rfl

/-- **A unit of work ends over a connection that lives** by its statement and, if that fails, by a
rollback. -/
theorem finish_alive (h : s.link? o = some .alive) (statement : Statement)
    (error : Failure → LedgerError) :
    (s.finish o statement error).1 = ((s.verdict 0).result.map fun _ => ()).mapError error ∧
      ∃ k, Said s (statement :: List.replicate k .rollback) (s.finish o statement error).2 := by
  obtain ⟨hverdict, hsaid, -⟩ := sendIn_alive h statement
  unfold finish
  split
  · rename_i r s₁ heq
    rw [heq] at hverdict hsaid
    rw [← hverdict]
    exact ⟨rfl, 0, hsaid.congr rfl rfl⟩
  · rename_i verdict s₁ _ heq
    rw [heq] at hverdict hsaid
    -- The unit of work is given up, which says one more thing if the connection still lives.
    obtain ⟨k, hdrop⟩ := said_drop s₁ o
    dsimp only at hverdict
    rw [← hverdict]
    exact ⟨rfl, k, hsaid.trans hdrop⟩

/-- A unit of work that ends without a connection that lives says nothing, and fails. -/
theorem finish_ended (h : s.link? o ≠ some .alive) (statement : Statement)
    (error : Failure → LedgerError) :
    (s.finish o statement error).1 = .error (error .endOfConnection) ∧
      Said s [] (s.finish o statement error).2 := by
  have hsend : s.sendIn o statement = (.closed, s) := by
    unfold sendIn
    split
    · rename_i halive
      exact absurd halive h
    · rfl
  have hdrop : s.drop o = s.closeUnit o := by
    unfold drop
    split
    · rename_i halive
      exact absurd halive h
    · rfl
  unfold finish
  rw [hsend]
  dsimp only
  rw [hdrop]
  exact ⟨rfl, (Said.refl s).congr rfl rfl⟩

/-- A rollback says nothing but that, and fails with nothing but that. -/
theorem rollback_cases (s : Session) (o : Owner) :
    ((s.rollback o).1 = .ok () ∨ ∃ reason, (s.rollback o).1 = .error (.rollbackFailure reason)) ∧
      ∃ k, Said s (List.replicate k .rollback) (s.rollback o).2 := by
  by_cases h : s.link? o = some .alive
  · obtain ⟨hanswer, k, hsaid⟩ := finish_alive h .rollback Failure.whileRollingBack
    refine ⟨?_, k + 1, hsaid⟩
    have hrollback : (s.rollback o).1 = _ := hanswer
    rw [hrollback]
    cases s.verdict 0 with
    | executed r => exact .inl rfl
    | rejected r => exact .inr ⟨_, rfl⟩
    | unexpected => exact .inr ⟨_, rfl⟩
    | closed => exact .inr ⟨_, rfl⟩
  · obtain ⟨hanswer, hsaid⟩ := finish_ended h .rollback Failure.whileRollingBack
    exact ⟨.inr ⟨_, hanswer⟩, 0, hsaid⟩

end Session

/-! ## What an operation answers -/

theorem Result.first_eq_ok_iff {α : Type} {r : Result} {read : Row → Except Failure α} {a : α} :
    r.first read = .ok a ↔ ∃ row rest, r.rows = row :: rest ∧ read row = .ok a := by
  unfold Result.first
  cases r.rows with
  | nil => simp
  | cons row rest => simp

theorem Result.map_first_eq_ok_iff {α : Type} {r : Result} {read : Row → Except Failure α} {a : α} :
    (Except.ok <$> r.first read : Except Failure (Except LedgerError α)) = .ok (.ok a) ↔
      ∃ row rest, r.rows = row :: rest ∧ read row = .ok a := by
  rw [← Result.first_eq_ok_iff]
  cases r.first read <;> simp [Functor.map, Except.map]

/-- The backend executed a statement. -/
def Verdict.Acknowledges (v : Verdict) : Prop := ∃ r, v = .executed r

/-- The backend executed a statement and returned a row that a record can be read from. -/
def Verdict.Returns {α : Type} (v : Verdict) (read : Row → Except Failure α) : Prop :=
  ∃ r row rest a, v = .executed r ∧ r.rows = row :: rest ∧ read row = .ok a

namespace Operation

variable {op : Operation} {v : Verdict}

theorem conclude_error (op : Operation) (f : Failure) :
    op.conclude (.error f) = .error (op.error f) := rfl

theorem conclude_unread {r : Result} {f : Failure} (h : op.read r = .error f) :
    op.conclude (.ok r) = .error (op.error f) := by
  simp only [conclude, fetch, h]

theorem conclude_read {r : Result} {answer : Except LedgerError op.Answer}
    (h : op.read r = .ok answer) : op.conclude (.ok r) = answer := by
  simp only [conclude, fetch, h]

theorem conclude_eq_ok_iff {a : op.Answer} :
    op.conclude v.result = .ok a ↔ ∃ r, v = .executed r ∧ op.read r = .ok (.ok a) := by
  cases v with
  | executed r =>
      cases hr : op.read r with
      | error f => simp [Verdict.result, conclude_unread hr, hr]
      | ok answer => simp [Verdict.result, conclude_read hr, hr]
  | rejected r => simp [Verdict.result, conclude_error]
  | unexpected => simp [Verdict.result, conclude_error]
  | closed => simp [Verdict.result, conclude_error]

theorem read_addBalance (account delta : Int) (r : Result) :
    (addBalance account delta).read r = (r.first? Row.account).bind fun a? =>
      match a? with
      | some a => .ok (.ok a)
      | none => .ok (.error (.accountNotFound account)) := rfl

/-- An operation that asks for one record succeeds if the backend returns it. -/
theorem conclude_isOk_iff {read : Row → Except Failure op.Answer}
    (h : ∀ r a, op.read r = .ok (.ok a) ↔ ∃ row rest, r.rows = row :: rest ∧ read row = .ok a) :
    (∃ a, op.conclude v.result = .ok a) ↔ v.Returns read := by
  constructor
  · rintro ⟨a, ha⟩
    obtain ⟨r, hv, hr⟩ := conclude_eq_ok_iff.1 ha
    obtain ⟨row, rest, hrows, hrow⟩ := (h r a).1 hr
    exact ⟨r, row, rest, a, hv, hrows, hrow⟩
  · rintro ⟨r, row, rest, a, hv, hrows, hrow⟩
    exact ⟨a, conclude_eq_ok_iff.2 ⟨r, hv, (h r a).2 ⟨row, rest, hrows, hrow⟩⟩⟩

theorem createTransfer_isOk_iff (n : NewTransfer) :
    (∃ t, (createTransfer n).conclude v.result = .ok t) ↔ v.Returns Row.transfer :=
  conclude_isOk_iff fun _ _ => Result.map_first_eq_ok_iff

theorem createEntry_isOk_iff (n : NewEntry) :
    (∃ e, (createEntry n).conclude v.result = .ok e) ↔ v.Returns Row.entry :=
  conclude_isOk_iff fun _ _ => Result.map_first_eq_ok_iff

theorem addBalance_isOk_iff (account delta : Int) :
    (∃ a, (addBalance account delta).conclude v.result = .ok a) ↔ v.Returns Row.account := by
  refine conclude_isOk_iff fun r a => ?_
  rw [read_addBalance]
  unfold Result.first?
  cases r.rows with
  | nil => simp [Except.bind]
  | cons row rest =>
      cases hrow : row.account with
      | error f => simp [Functor.map, Except.map, Except.bind, hrow]
      | ok found =>
          simp [Functor.map, Except.map, Except.bind, hrow]
          exact ⟨fun h => congrArg Except.ok (Except.ok.inj h),
            fun h => congrArg Except.ok (Except.ok.inj h)⟩

/-- A result that can be read is an error of the ledger only where it has no account to adjust. -/
theorem read_eq_error {r : Result} {e : LedgerError} (h : op.read r = .ok (.error e)) :
    ∃ account delta, op = .addBalance account delta ∧ e = .accountNotFound account := by
  have hmap : ∀ {α : Type} (x : Except Failure α),
      (Except.ok <$> x : Except Failure (Except LedgerError α)) ≠ .ok (.error e) := by
    intro α x
    cases x with
    | error f => exact nofun
    | ok a => exact nofun
  cases op with
  | addBalance account delta =>
      refine ⟨account, delta, rfl, ?_⟩
      rw [read_addBalance] at h
      cases hfirst : r.first? Row.account with
      | error f =>
          rw [hfirst] at h
          exact nomatch h
      | ok a? =>
          rw [hfirst] at h
          cases a? with
          | some a => exact nomatch h
          | none => exact (Except.error.inj (Except.ok.inj h)).symm
  | deleteAccount id => exact nomatch h
  | healthCheck => exact nomatch h
  | _ => exact absurd h (hmap _)

/-- **An operation fails** with the error for what went wrong, or because the account to adjust is
not there. -/
theorem conclude_eq_error {r : Except Failure Result} {e : LedgerError}
    (h : op.conclude r = .error e) : (∃ f, e = op.error f) ∨
      ∃ account delta, op = .addBalance account delta ∧ e = .accountNotFound account := by
  cases r with
  | error f => exact .inl ⟨f, (Except.error.inj h).symm⟩
  | ok result =>
      cases hread : op.read result with
      | error f =>
          rw [conclude_unread hread] at h
          exact .inl ⟨f, (Except.error.inj h).symm⟩
      | ok answer =>
          rw [conclude_read hread] at h
          rw [h] at hread
          exact .inr (read_eq_error hread)

end Operation

end DoubleEntry.Database
