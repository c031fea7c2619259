import DoubleEntry.Proofs.Hall
import DoubleEntry.Proofs.Journal
set_option autoImplicit false

/-! # What happens at a desk, call by call

Whatever happens at a desk is a sequence of moves of its bank (`Hall.comes_desk`): an account
statement is one move, a call in a unit of work is one, and a transfer is as many as it makes calls.
So what holds of every hall holds of the bank of every desk.
-/

namespace DoubleEntry

open Function (update update_self update_of_ne update_eq_self)

/-! ## Transfers, call by call -/

theorem Locking.awaits_eq {locks : Table Lock} {rows : Owner → List Int}
    {awaits awaits' : Owner → Option Int} (h : Locking locks rows awaits)
    (h' : Locking locks rows awaits') : awaits = awaits' := by
  have half : ∀ {aw aw' : Owner → Option Int}, Locking locks rows aw → Locking locks rows aw' →
      ∀ {o a}, aw o = some a → aw' o = some a := by
    intro aw aw' h h' o a ha
    obtain ⟨hn, l, hl, hlock⟩ := h.asked ha
    rcases hlock with rfl | hw
    · exact (h'.holder hl).resolve_left hn
    · exact h'.waiter hl hw
  funext o
  exact Option.ext fun a => ⟨half h h', half h' h⟩

namespace Bank

variable {spent : Spent} {b₀ b : Bank} {awaits : Owner → Option Int} {o : Owner} {n : NewTransfer}
  {r : Run}

/-- A transfer that waits for a row is asking for it, and no fault is in the way. -/
theorem InFlight.awaits_cases (h : b₀.InFlight spent awaits o n r b) (hb : b.Sound awaits) :
    awaits o = none ∨
      awaits o = r.stage.awaits? n ∧ faultOf? r.faults r.answered r.call = none := by
  rcases h.sound with hs | ⟨a, ha, hs, hfault⟩
  · refine .inl ?_
    rw [hb.locking.awaits_eq hs.locking, update_self]
  · refine .inr ⟨?_, hfault⟩
    rw [hb.locking.awaits_eq hs.locking, update_self, ha]

end Bank

theorem Run.row?_call (r : Run) : r.call.row? = r.stage.awaits? r.request := by
  obtain ⟨n, faults, stage, answered⟩ := r
  cases stage <;> rfl

theorem Stage.call_eq_begin_iff (n : NewTransfer) (s : Stage) :
    s.call n = .begin ↔ s = .beginning := by
  cases s <;> simp [call]

/-- Two things that hold of where a call leads. -/
theorem Store.Leads.and {σ : Type} {P P' W W' : Run → σ → Prop} {E E' : Outcome → σ → Prop}
    {r : Run} {x : Option (Except LedgerError r.call.Answer) × σ} (h : Leads P W E r x)
    (h' : Leads P' W' E' r x) :
    Leads (fun r s => P r s ∧ P' r s) (fun r s => W r s ∧ W' r s) (fun e s => E e s ∧ E' e s)
      r x := by
  obtain ⟨answer, s⟩ := x
  cases answer with
  | none => exact ⟨h, h'⟩
  | some a =>
      unfold Leads at h h' ⊢
      dsimp only at h h' ⊢
      cases hs : r.stage.resume r.request a with
      | inl stage =>
          rw [hs] at h h'
          exact ⟨h, h'⟩
      | inr outcome =>
          rw [hs] at h h'
          exact ⟨h, h'⟩

/-- Where an answer leads is read off the stage. -/
theorem Store.Leads.of_resume {σ : Type} {P W : Run → σ → Prop} {E : Outcome → σ → Prop} {r : Run}
    {a : Except LedgerError r.call.Answer} {s : σ}
    (goes : ∀ stage, r.stage.resume r.request a = .inl stage →
      P { r with stage, answered := r.made } s)
    (ends : ∀ outcome, r.stage.resume r.request a = .inr outcome → E outcome s) :
    Leads P W E r (some a, s) := by
  unfold Leads
  dsimp only
  cases hs : r.stage.resume r.request a with
  | inl stage => exact goes stage hs
  | inr outcome => exact ends outcome hs

/-- Wherever a transfer goes from an answer. -/
theorem Store.Leads.of_answered {σ : Type} {P W : Run → σ → Prop} {E : Outcome → σ → Prop}
    {r : Run} {s : σ} (goes : ∀ stage, P { r with stage, answered := r.made } s)
    (ends : ∀ outcome, E outcome s) (a : Except LedgerError r.call.Answer) :
    Leads P W E r (some a, s) :=
  .of_resume (fun stage _ => goes stage) fun outcome _ => ends outcome

/-- Wherever a call leads. -/
theorem Store.Leads.trivial {σ : Type} (r : Run)
    (x : Option (Except LedgerError r.call.Answer) × σ) :
    Leads (fun _ _ => True) (fun _ _ => True) (fun _ _ => True) r x := by
  obtain ⟨_ | a, s⟩ := x
  · exact True.intro
  · exact .of_answered (fun _ => True.intro) (fun _ => True.intro) a

namespace Hall

/-- Moves lead from a hall to a bank and to what its owners wait for. -/
def Comes (h : Hall) (b : Bank) (awaits : Owner → Option Int) : Prop :=
  ∃ ms, (h.afterAll ms).bank = b ∧ (h.afterAll ms).awaits = awaits

variable {spent : Spent} {h : Hall} {b : Bank} {awaits : Owner → Option Int} {o : Owner}
  {number : Nat} {account : Int}

namespace Comes

theorem refl (h : Hall) : h.Comes h.bank h.awaits := ⟨[], rfl, rfl⟩

/-- One more move. -/
theorem move (hc : h.Comes b awaits) {b' : Bank} {awaits' : Owner → Option Int} (m : Move)
    (hm : ∀ h' : Hall, h'.bank = b → h'.awaits = awaits →
      (h'.after m).bank = b' ∧ (h'.after m).awaits = awaits') : h.Comes b' awaits' := by
  obtain ⟨ms, hb, ha⟩ := hc
  have hlast : h.afterAll (ms ++ [m]) = (h.afterAll ms).after m := by simp [afterAll]
  exact ⟨ms ++ [m], by rw [hlast]; exact hm _ hb ha⟩

/-- An owner that waits for nothing need not stop waiting. -/
theorem idle {b : Bank} (hc : h.Comes b (update awaits o none)) (ha : awaits o = none) :
    h.Comes b awaits := by
  rwa [← ha, update_eq_self] at hc

theorem call (hc : h.Comes b awaits) {c : Call} (hopen : b.IsOpen o ↔ c ≠ .begin)
    (ha : awaits o = none ∨ awaits o = c.row?) :
    h.Comes ((Bank.store o).perform c b).2
      (update awaits o (if ((Bank.store o).perform c b).1.isNone then c.row? else none)) := by
  refine hc.move (.call o c) ?_
  rintro h' rfl rfl
  rw [after_call ⟨hopen, ha⟩]
  exact ⟨rfl, rfl⟩

theorem leave (hc : h.Comes b awaits) (ha : awaits o = some account) :
    h.Comes (b.abandon o account) (update awaits o none) := by
  refine hc.move (.leave o) ?_
  rintro h' rfl rfl
  simp [after, Hall.leave, ha]

theorem drop (hc : h.Comes b awaits) (ha : awaits o = none) : h.Comes (b.rollback o) awaits := by
  refine hc.move (.drop o) ?_
  rintro h' rfl rfl
  simp [after, Hall.drop, Hall.leave, ha]

theorem createAccount (hc : h.Comes b awaits) (n : NewAccount) :
    h.Comes (b.createAccount n).2 awaits := by
  refine hc.move (.createAccount n) ?_
  rintro h' rfl rfl
  exact ⟨rfl, rfl⟩

theorem updateAccount (hc : h.Comes b awaits) (hclosed : ¬ b.IsOpen (.call number))
    (ha : awaits (.call number) = none ∨ awaits (.call number) = some account) (balance : Int) :
    h.Comes (b.updateAccount (.call number) account balance).2 (update awaits (.call number)
      (if (b.updateAccount (.call number) account balance).1.isNone then some account
        else none)) := by
  refine hc.move (.updateAccount number account balance) ?_
  rintro h' rfl rfl
  rw [after_updateAccount ⟨hclosed, ha⟩]
  exact ⟨rfl, rfl⟩

theorem deleteAccount (hc : h.Comes b awaits) (hclosed : ¬ b.IsOpen (.call number))
    (ha : awaits (.call number) = none ∨ awaits (.call number) = some account) :
    h.Comes (b.deleteAccount (.call number) account).2 (update awaits (.call number)
      (if (b.deleteAccount (.call number) account).1.isNone then some account else none)) := by
  refine hc.move (.deleteAccount number account) ?_
  rintro h' rfl rfl
  rw [after_deleteAccount ⟨hclosed, ha⟩]
  exact ⟨rfl, rfl⟩

theorem tick (hc : h.Comes b awaits) (now : Timestamp) :
    h.Comes { b with clock := now } awaits := by
  refine hc.move (.tick now) ?_
  rintro h' rfl rfl
  exact ⟨rfl, rfl⟩

/-- A fault in the place of a call drops the unit of work, if it is the end of it. -/
theorem refuse (hc : h.Comes b awaits) (ha : awaits o = none) (c : Call) :
    h.Comes ((Bank.store o).refuse c b) awaits := by
  cases c with
  | commit => exact hc.drop ha
  | rollback => exact hc.drop ha
  | _ => exact hc

/-- A transfer between two calls: it may be asking again for a row that it was let to wait for. -/
def Resumes (h : Hall) (awaits : Owner → Option Int) (o : Owner) (r : Run) (b : Bank) : Prop :=
  ∃ x, h.Comes b (update awaits o x) ∧
    (x = none ∨ x = r.call.row? ∧ faultOf? r.faults r.answered r.call = none)

/-- **Each call of a transfer is a move,** or a fault stands in its place. -/
theorem leads {b₀ : Bank} {n : NewTransfer} {r : Run} (hr : b₀.InFlight spent awaits o n r b)
    (hc : Resumes h awaits o r b) :
    Store.Leads (Resumes h awaits o) (fun r b => h.Comes b (update awaits o r.call.row?))
      (fun _ b => h.Comes b (update awaits o none)) r ((Bank.store o).answer r b) := by
  obtain ⟨x, hc, hx⟩ := hc
  rcases (Bank.store o).answer_cases r b with ⟨e, hfault, heq⟩ | ⟨-, heq⟩
  · have hnone : x = none := by
      rcases hx with hx | ⟨-, hx⟩
      · exact hx
      · rw [hx] at hfault
        cases hfault
    rw [hnone] at hc
    have hrefuse := hc.refuse (update_self _ _ _) r.call
    rw [heq]
    refine Store.Leads.of_answered ?_ ?_ _
    · exact fun _ => ⟨none, hrefuse, .inl rfl⟩
    · exact fun _ => hrefuse
  · have hopen : b.IsOpen o ↔ r.call ≠ .begin := by
      rw [hr.carries.isOpen]
      exact (Stage.call_eq_begin_iff r.request r.stage).not.symm
    have hasks : update awaits o x o = none ∨ update awaits o x o = r.call.row? := by
      rw [update_self]
      exact hx.imp_right And.left
    have hcall := hc.call hopen hasks
    rw [Function.update_idem] at hcall
    rw [heq]
    generalize (Bank.store o).perform r.call b = y at hcall ⊢
    obtain ⟨answer, b'⟩ := y
    cases answer with
    | none => exact hcall
    | some a =>
        refine Store.Leads.of_answered ?_ ?_ a
        · exact fun _ => ⟨none, hcall, .inl rfl⟩
        · exact fun _ => hcall

/-- **A transfer is a sequence of moves,** up to where it waits or ends. -/
theorem run {n : NewTransfer} {r : Run} (hc : h.Comes b awaits) (hb : b.Sound awaits)
    (hr : b.InFlight spent awaits o n r b) :
    Store.Satisfies (fun r' b' => r'.request = n ∧ h.Comes b' (update awaits o r'.call.row?))
      (fun _ b' => h.Comes b' (update awaits o none)) ((Bank.store o).run r b) := by
  have hstart : Resumes h awaits o r b := by
    refine ⟨awaits o, by rwa [update_eq_self], ?_⟩
    rw [Run.row?_call, hr.request]
    exact hr.awaits_cases hb
  have hrun : Store.Satisfies _ _ ((Bank.store o).run r b) := Store.run_satisfies
    (P := fun r' b' => b.InFlight spent awaits o n r' b' ∧ Resumes h awaits o r' b')
    (fun r' b' hP => hP.1.leads.and (leads hP.1 hP.2)) ⟨hr, hstart⟩
  generalize (Bank.store o).run r b = y at hrun ⊢
  obtain ⟨r' | ⟨outcome, made⟩, b'⟩ := y
  · exact ⟨hrun.1.request, hrun.2⟩
  · exact hrun.2

end Comes

end Hall

/-! ## What happens at a desk -/

/-- A unit of work that is not open waits for nothing. -/
theorem Desk.Sound.awaits_of_closed {spent : Spent} {d : Desk} (hd : d.Sound spent) {unit : String}
    (hclosed : ¬ d.bank.IsOpen (.unit unit)) : d.awaits (.unit unit) = none := by
  refine Desk.awaits_of_idle fun {m s} hs e => ?_
  have hparked := hd.parked hs
  cases s with
  | addBalance u account delta =>
      obtain rfl := Owner.unit.inj e
      exact hclosed hparked
  | _ => cases e

namespace Hall

variable {spent : Spent} {h : Hall} {b : Bank} {awaits : Owner → Option Int} {number : Nat}

namespace Comes

variable {r : Request} {d : Desk}

/-- Carrying a call as far as it gets. -/
theorem proceed (hc : h.Comes b awaits) (hb : b.Sound awaits)
    (hcan : b.CanProceed spent awaits number r) :
    match r.proceed number b with
    | (none, r', b') => h.Comes b' (update awaits (r.owner number) r'.awaits?)
    | (some _, _, b') => h.Comes b' (update awaits (r.owner number) none) := by
  cases r with
  | addBalance unit account delta =>
      obtain ⟨ho, -, ha⟩ := hcan
      have hopen : b.IsOpen (.unit unit) ↔ Call.addBalance account delta ≠ .begin :=
        iff_of_true ho (by simp)
      have hcall : h.Comes (b.addBalance (.unit unit) account delta).2 (update awaits (.unit unit)
          (if (b.addBalance (.unit unit) account delta).1.isNone then some account else none)) :=
        hc.call hopen ha
      unfold Request.proceed
      dsimp only
      generalize b.addBalance (.unit unit) account delta = x at hcall ⊢
      obtain ⟨_ | answer, b'⟩ := x
      · exact hcall
      · exact hcall
  | updateAccount account balance =>
      obtain ⟨hclosed, ha⟩ := hcan
      have hcall := hc.updateAccount hclosed ha balance
      unfold Request.proceed
      dsimp only
      generalize b.updateAccount (.call number) account balance = x at hcall ⊢
      obtain ⟨_ | answer, b'⟩ := x
      · exact hcall
      · exact hcall
  | deleteAccount account =>
      obtain ⟨hclosed, ha⟩ := hcan
      have hcall := hc.deleteAccount hclosed ha
      unfold Request.proceed
      dsimp only
      generalize b.deleteAccount (.call number) account = x at hcall ⊢
      obtain ⟨_ | answer, b'⟩ := x
      · exact hcall
      · exact hcall
  | transfer run =>
      have hrun := hc.run hb hcan
      unfold Request.proceed
      dsimp only
      generalize (Bank.store (.call number)).run run b = x at hrun ⊢
      obtain ⟨run' | ⟨outcome, made⟩, b'⟩ := x
      · obtain ⟨-, hwait⟩ := hrun
        rw [Run.row?_call, ← Request.awaits?_transfer] at hwait
        exact hwait
      · exact Comes.drop hrun (update_self _ _ _)

/-- **Carrying a call of a desk is a sequence of moves.** -/
theorem attempt (hc : h.Comes d.bank d.awaits) (hd : d.Sound spent) (hup : d.Up number r)
    (hcan : d.bank.CanProceed spent d.awaits number r) :
    h.Comes (d.attempt number r).2.bank (d.attempt number r).2.awaits := by
  have hproceeds := hc.proceed hd.bank hcan
  have hproceeded := hcan.proceed hd.bank hd.fresh
  rw [Desk.attempt_eq]
  generalize r.proceed number d.bank = x at hproceeds hproceeded ⊢
  obtain ⟨answer, r', bank⟩ := x
  cases answer with
  | none =>
      have howner := hproceeded.owner
      have hup' : d.Up number r' := fun hs => by rw [howner]; exact hup hs
      have hawaits := Desk.awaits_park hd.distinct hup'
      rw [howner] at hawaits
      dsimp only at hproceeds ⊢
      rw [Desk.park_eq]
      rw [← hawaits] at hproceeds
      exact hproceeds
  | some reply =>
      have hawaits := Desk.awaits_dismiss hd.distinct hup
      dsimp only at hproceeds
      rw [← hawaits] at hproceeds
      exact hproceeds

/-- A call that a command starts. -/
theorem start (hc : h.Comes d.bank d.awaits) (hd : d.Sound spent) (hup : d.Up d.next r)
    (hcan : d.bank.CanProceed spent d.awaits d.next r) :
    h.Comes (d.call r).2.bank (d.call r).2.awaits := by
  rw [Desk.call_desk]
  exact hc.attempt hd hup hcan

/-- **What is done in a unit of work is one move.** -/
theorem onUnit (hc : h.Comes d.bank d.awaits) (hd : d.Sound spent) {unit : String}
    (ho : d.bank.IsOpen (.unit unit)) (hidle : ¬ d.isBusy unit = true) (action : UnitAction) :
    h.Comes (d.onUnit unit action).2.bank (d.onUnit unit action).2.awaits := by
  have hnone : d.awaits (.unit unit) = none := Desk.awaits_of_idle (Desk.idle_of_not_busy hidle)
  -- A call that is answered at once leaves its owner waiting for nothing, as before.
  have once : ∀ c : Call, c ≠ .begin → ((Bank.store (.unit unit)).perform c d.bank).1.isSome →
      h.Comes ((Bank.store (.unit unit)).perform c d.bank).2 d.awaits := by
    intro c hne hsome
    have hcall := hc.call (iff_of_true ho hne) (.inl hnone)
    have hanswered : ¬ ((Bank.store (.unit unit)).perform c d.bank).1.isNone = true := by
      simpa using Option.isSome_iff_ne_none.1 hsome
    rw [if_neg hanswered] at hcall
    exact hcall.idle hnone
  cases action with
  | createTransfer n => exact once (.createTransfer n) (by simp) rfl
  | createEntry n => exact once (.createEntry n) (by simp) rfl
  | addBalance account delta =>
      have hup : d.Up d.next (.addBalance unit account delta) :=
        hd.up_next (Desk.idle_of_not_busy hidle)
      exact hc.start hd hup ⟨ho, hd.closed_of_new, .inl hnone⟩
  | commit => exact once .commit (by simp) rfl
  | rollback => exact once .rollback (by simp) rfl
  | drop => exact hc.drop hnone

theorem submit (hc : h.Comes d.bank d.awaits) (hd : d.Sound spent) (c : Command) :
    h.Comes (d.submit c).2.bank (d.submit c).2.awaits := by
  cases c with
  | query q => exact hc
  | createAccount n => exact hc.createAccount n
  | updateAccount id balance =>
      exact hc.start hd (hd.up_call rfl) ⟨hd.closed_of_new, .inl hd.awaits_next⟩
  | deleteAccount id =>
      exact hc.start hd (hd.up_call rfl) ⟨hd.closed_of_new, .inl hd.awaits_next⟩
  | begin unit =>
      rcases d.submit_begin_cases unit with ⟨-, heq⟩ | ⟨hclosed, heq⟩
      · rw [heq]
        exact hc
      · have hnone := hd.awaits_of_closed hclosed
        have hbegin : h.Comes (d.bank.begin (.unit unit)) (update d.awaits (.unit unit) none) :=
          hc.call (c := .begin) (iff_of_false hclosed (by simp)) (.inl hnone)
        rw [heq]
        exact hbegin.idle hnone
  | onUnit unit action =>
      rcases d.submit_onUnit_cases unit action with ⟨refusal, heq⟩ | ⟨ho, hidle, heq⟩
      · rw [heq]
        exact hc
      · rw [heq]
        exact hc.onUnit hd ho hidle action
  | transfer n faults => exact hc.start hd (hd.up_call rfl) (hd.canStart n faults)

/-- A pending call is given up. -/
theorem giveUp (hc : h.Comes d.bank d.awaits) (hd : d.Sound spent)
    (hr : (number, r) ∈ d.pending) :
    h.Comes (d.giveUp number r).bank (d.giveUp number r).awaits := by
  obtain ⟨a, ha⟩ := Option.isSome_iff_exists.1 (hd.waits hr)
  have hawaits := (Desk.awaits_of_mem hd.distinct hr).trans ha
  have hleave := hc.leave hawaits
  have hrest : (d.giveUp number r).awaits = update d.awaits (r.owner number) none := by
    have hdismiss := Desk.awaits_dismiss hd.distinct (hd.distinct.up hr)
    unfold Desk.awaits at hdismiss ⊢
    rwa [Desk.giveUp_pending]
  rw [hrest, Desk.giveUp_bank d ha]
  cases r with
  | transfer run => exact hleave.drop (update_self _ _ _)
  | _ => exact hleave

/-- **Whatever happens at a desk is a sequence of moves.** -/
theorem event (hc : h.Comes d.bank d.awaits) (hd : d.Sound spent) (e : Event) :
    h.Comes (d.after e).bank (d.after e).awaits := by
  cases e with
  | command c => exact hc.submit hd c
  | poll number =>
      rcases d.poll_cases number with ⟨-, heq⟩ | ⟨r, hr, -, heq⟩
      · rw [Desk.after, heq]
        exact hc
      · rw [Desk.after, heq]
        exact hc.attempt hd (hd.distinct.up hr) (hd.canProceed hr)
  | cancel number =>
      rcases d.cancel_cases number with ⟨-, heq⟩ | ⟨r, hr, -, heq⟩
      · rw [Desk.after, heq]
        exact hc
      · rw [Desk.after, heq]
        exact hc.giveUp hd hr
  | skip => exact hc
  | tick now => exact hc.tick now

/-- Whatever happens at a desk, one event after the other. -/
theorem afterAll {nonNegative : Bool} (hc : h.Comes d.bank d.awaits)
    (hd : d.Reachable nonNegative) (es : List Event) :
    h.Comes (d.afterAll es).bank (d.afterAll es).awaits := by
  induction es generalizing d with
  | nil => exact hc
  | cons e es ih => exact ih (hc.event hd.sound e) (hd.after e)

end Comes

/-- **What happens at a desk, call by call:** its bank is that of a hall. -/
theorem comes_desk (nonNegative : Bool) (es : List Event) :
    (opening nonNegative).Comes ((Desk.opening nonNegative).afterAll es).bank
      ((Desk.opening nonNegative).afterAll es).awaits :=
  (Comes.refl (opening nonNegative)).afterAll .opening es

/-- What happens at a desk after that is a sequence of moves that follow. -/
theorem comes_later (nonNegative : Bool) (es es' : List Event) : ∃ ms ms',
    ((opening nonNegative).afterAll ms).bank = ((Desk.opening nonNegative).afterAll es).bank ∧
      (((opening nonNegative).afterAll ms).afterAll ms').bank =
        ((Desk.opening nonNegative).afterAll (es ++ es')).bank := by
  obtain ⟨ms, hbank, hawaits⟩ := comes_desk nonNegative es
  have hc := Comes.refl ((opening nonNegative).afterAll ms)
  rw [hbank, hawaits] at hc
  obtain ⟨ms', hbank', -⟩ := hc.afterAll (Desk.Reachable.opening.afterAll es) es'
  refine ⟨ms, ms', hbank, ?_⟩
  rw [hbank', Desk.afterAll_append]

end Hall

end DoubleEntry
