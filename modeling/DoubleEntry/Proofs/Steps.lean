import DoubleEntry.Bank.Event
import DoubleEntry.Proofs.Desks
set_option autoImplicit false

/-! # What an event does at a desk

An event is the work of one owner (`Desk.actor`), and nobody else's work is touched by it
(`Desk.Sound.keeps_after`). What holds of every call that is started, and goes on to hold when a
call is carried further, holds of every pending call (`Desk.pending_after`). Numbers are given in
order, so that no call is started under an old one (`Desk.pending_of_old`).
-/

namespace DoubleEntry

/-- How many numbers an event uses up. -/
def Event.width : Event → Nat
  | .command _ | .cancel _ | .skip => 1
  | .poll _ | .tick _ => 0

namespace Desk

variable {spent : Spent} {d : Desk} {n m : Nat} {r s : Request} {o p : Owner} {e : Event}

/-! ## What holds of pending calls -/

variable {P : Nat → Request → Prop}

theorem pending_attempt (hproceed : ∀ {n r} b, P n r → P n (Request.proceed n r b).2.1)
    (h : ∀ {m s}, (m, s) ∈ d.pending → P m s) (hr : P n r)
    (hs : (m, s) ∈ (d.attempt n r).2.pending) : P m s := by
  have hP := hproceed d.bank hr
  rw [attempt_eq] at hs
  generalize r.proceed n d.bank = x at hP hs
  obtain ⟨_ | reply, r', bank⟩ := x
  · dsimp only at hs
    rw [park_eq] at hs
    rcases mem_park.1 hs with ⟨rfl, rfl⟩ | ⟨-, hs⟩
    · exact hP
    · exact h hs
  · exact h (mem_dismiss.1 hs).2

/-- A command leaves the pending calls alone unless it is a call itself. -/
theorem pending_submit (d : Desk) (c : Command) : (d.submit c).2.pending = d.pending ∨
    ∃ r, c.request? = some r ∧ d.submit c = d.call r := by
  cases c with
  | begin unit =>
      rcases d.submit_begin_cases unit with ⟨-, heq⟩ | ⟨-, heq⟩ <;> exact .inl (by rw [heq]; rfl)
  | onUnit unit action =>
      rcases d.submit_onUnit_cases unit action with ⟨refusal, heq⟩ | ⟨-, -, heq⟩
      · exact .inl (by rw [heq]; rfl)
      · rw [heq]
        cases action with
        | addBalance account delta => exact .inr ⟨_, rfl, rfl⟩
        | _ => exact .inl rfl
  | query q => exact .inl rfl
  | createAccount n => exact .inl rfl
  | _ => exact .inr ⟨_, rfl, rfl⟩

/-- **What holds of every call that is started and still holds when the call is carried further,
holds of every pending call.** -/
theorem pending_after (hproceed : ∀ {n r} b, P n r → P n (Request.proceed n r b).2.1)
    (hnew : ∀ {c r}, e = .command c → c.request? = some r → P d.next r)
    (h : ∀ {m s}, (m, s) ∈ d.pending → P m s) (hs : (m, s) ∈ (d.after e).pending) : P m s := by
  -- A command may start a call, a poll carries one further, and the other events add none.
  cases e with
  | command c =>
      replace hs : (m, s) ∈ (d.submit c).2.pending := hs
      rcases d.pending_submit c with hsame | ⟨r, hr, heq⟩
      · rw [hsame] at hs
        exact h hs
      · rw [heq, call_desk] at hs
        exact pending_attempt hproceed h (hnew rfl hr) hs
  | poll number =>
      replace hs : (m, s) ∈ (d.poll number).2.pending := hs
      rcases d.poll_cases number with ⟨-, heq⟩ | ⟨r, hr, -, heq⟩
      · rw [heq] at hs
        exact h hs
      · rw [heq] at hs
        exact pending_attempt hproceed h (h hr) hs
  | cancel number =>
      replace hs : (m, s) ∈ (d.cancel number).2.pending := hs
      rcases d.cancel_cases number with ⟨-, heq⟩ | ⟨r, -, -, heq⟩
      · rw [heq] at hs
        exact h hs
      · rw [heq] at hs
        replace hs : (m, s) ∈ (d.giveUp number r).pending := hs
        rw [giveUp_pending] at hs
        exact h (mem_dismiss.1 hs).2
  | skip => exact h hs
  | tick now => exact h hs

/-! ## The number of the next command -/

theorem next_submit (d : Desk) (c : Command) : (d.submit c).2.next = d.next + 1 := by
  have hcall : ∀ r, (d.call r).2.next = d.next + 1 := fun r => by
    rw [call_desk]
    show (d.attempt d.next r).2.next + 1 = d.next + 1
    rw [attempt_next]
  cases c with
  | begin unit =>
      rcases d.submit_begin_cases unit with ⟨-, heq⟩ | ⟨-, heq⟩ <;> rw [heq] <;> rfl
  | onUnit unit action =>
      rcases d.submit_onUnit_cases unit action with ⟨refusal, heq⟩ | ⟨-, -, heq⟩
      · rw [heq]
        rfl
      · rw [heq]
        cases action with
        | addBalance account delta => exact hcall _
        | _ => rfl
  | query q => rfl
  | createAccount n => rfl
  | _ => exact hcall _

theorem next_after (d : Desk) (e : Event) : (d.after e).next = d.next + e.width := by
  cases e with
  | command c => exact d.next_submit c
  | poll n =>
      show (d.poll n).2.next = d.next
      rcases d.poll_cases n with ⟨-, heq⟩ | ⟨r, -, -, heq⟩
      · rw [heq]
      · rw [heq, attempt_next]
  | cancel n =>
      show (d.cancel n).2.next = d.next + 1
      rcases d.cancel_cases n with ⟨-, heq⟩ | ⟨r, -, -, heq⟩
      · rw [heq]
        rfl
      · rw [heq]
        show (d.giveUp n r).next + 1 = d.next + 1
        rw [giveUp_next]
  | skip => rfl
  | tick now => rfl

theorem next_le_after (d : Desk) (e : Event) : d.next ≤ (d.after e).next :=
  (Nat.le_add_right _ _).trans (d.next_after e).ge

/-- **What holds of an old call and still holds when the call is carried further** holds of it as
long as it is pending. -/
theorem pending_of_old {Q : Request → Prop}
    (hproceed : ∀ r b, Q r → Q (Request.proceed n r b).2.1) (hn : n < d.next)
    (h : ∀ {r}, (n, r) ∈ d.pending → Q r) (es : List Event)
    (hs : (n, s) ∈ (d.afterAll es).pending) : Q s := by
  induction es generalizing d with
  | nil => exact h hs
  | cons e es ih =>
      refine ih (hn.trans_le (d.next_le_after e)) (fun hr => ?_) hs
      -- A call that is started meanwhile gets another number.
      exact pending_after (P := fun m r => m = n → Q r) (fun b hP hm => hm ▸ hproceed _ b (hP hm))
        (fun _ _ hm => absurd hm hn.ne') (fun hr hm => h (hm ▸ hr)) hr rfl

/-! ## Whose work an event is -/

/-- Who is at work when something happens. -/
def actor (d : Desk) : Event → Owner
  | .command (.begin unit) | .command (.onUnit unit _) => .unit unit
  | .command _ | .skip | .tick _ => .call d.next
  | .poll n | .cancel n => ((d.pending.lookup n).map fun r => r.owner n).getD (.call n)

/-- Taking a call is the work of its owner. -/
theorem Sound.keeps_call (h : d.Sound spent) (hup : d.Up d.next r)
    (hcan : d.bank.CanProceed spent d.awaits d.next r) (hp : p ≠ r.owner d.next) :
    d.bank.Keeps p (d.call r).2.bank := by
  rw [call_desk]
  exact (h.attempt hup hcan (Nat.le_succ _) (Nat.lt_succ_self _)).2.keeps hp

/-- Something that is done in a unit of work that is open and not busy is its own work. -/
theorem Sound.keeps_onUnit (h : d.Sound spent) {u : String} (hopen : d.bank.IsOpen (.unit u))
    (hbusy : ¬ d.isBusy u = true) (action : UnitAction) (hp : p ≠ .unit u) :
    d.bank.Keeps p (d.onUnit u action).2.bank := by
  have hidle : ∀ {m r}, (m, r) ∈ d.pending → r.owner m ≠ .unit u := fun hr =>
    idle_of_not_busy hbusy hr
  have hawaits : d.awaits (.unit u) = none := awaits_of_idle hidle
  have hrollback : d.bank.Keeps p (d.bank.rollback (.unit u)) :=
    h.bank.within_rollback.keeps h.bank (h.bank.rollback hawaits) hp
  cases action with
  | createTransfer t =>
      obtain ⟨hs, hw, -⟩ := h.bank.createTransfer hopen t
      exact hw.keeps h.bank hs hp
  | createEntry e =>
      obtain ⟨hs, hw, -⟩ := h.bank.createEntry hopen e
      exact hw.keeps h.bank hs hp
  | addBalance account delta =>
      exact h.keeps_call (r := .addBalance u account delta) (h.up_next hidle)
        ⟨hopen, h.closed_of_new, .inl hawaits⟩ hp
  | commit => exact h.bank.keeps_commit hopen hp
  | rollback => exact hrollback
  | drop => exact hrollback

theorem Sound.keeps_submit (h : d.Sound spent) (c : Command) (hp : p ≠ d.actor (.command c)) :
    d.bank.Keeps p (d.submit c).2.bank := by
  cases c with
  | query q => exact .refl _ _
  | createAccount n => exact (h.bank.createAccount h.fresh.nextAccount n).2.1 p
  | updateAccount account balance =>
      exact h.keeps_call (r := .updateAccount account balance) (h.up_call rfl)
        ⟨h.closed_of_new, .inl h.awaits_next⟩ hp
  | deleteAccount account =>
      exact h.keeps_call (r := .deleteAccount account) (h.up_call rfl)
        ⟨h.closed_of_new, .inl h.awaits_next⟩ hp
  | begin unit =>
      rcases d.submit_begin_cases unit with ⟨-, heq⟩ | ⟨hopen, heq⟩
      · rw [heq]
        exact .refl _ _
      · rw [heq]
        exact (Bank.within_begin d.bank _).keeps h.bank (h.bank.begin hopen) hp
  | onUnit unit action =>
      rcases d.submit_onUnit_cases unit action with ⟨refusal, heq⟩ | ⟨hopen, hbusy, heq⟩
      · rw [heq]
        exact .refl _ _
      · rw [heq]
        exact h.keeps_onUnit hopen hbusy action hp
  | transfer t faults =>
      exact h.keeps_call (r := .transfer { request := t, faults }) (h.up_call rfl)
        (h.canStart t faults) hp

/-- **Nobody's work is touched by an event that is the work of somebody else.** -/
theorem Sound.keeps_after (h : d.Sound spent) (e : Event) (hp : p ≠ d.actor e) :
    d.bank.Keeps p (d.after e).bank := by
  cases e with
  | command c => exact h.keeps_submit c hp
  | poll number =>
      show d.bank.Keeps p (d.poll number).2.bank
      rcases d.poll_cases number with ⟨-, heq⟩ | ⟨r, hr, hl, heq⟩
      · rw [heq]
        exact .refl _ _
      · rw [heq]
        have howner : p ≠ r.owner number := by simpa [actor, hl] using hp
        exact (h.attempt (h.distinct.up hr) (h.canProceed hr) le_rfl (h.below hr)).2.keeps howner
  | cancel number =>
      show d.bank.Keeps p (d.cancel number).2.bank
      rcases d.cancel_cases number with ⟨-, heq⟩ | ⟨r, hr, hl, heq⟩
      · rw [heq]
        exact .refl _ _
      · rw [heq]
        have howner : p ≠ r.owner number := by simpa [actor, hl] using hp
        obtain ⟨hd, hw, -⟩ := h.giveUp hr le_rfl
        exact hw.keeps h.bank hd.bank howner
  | skip => exact .refl _ _
  | tick now => exact .of_work? rfl rfl fun _ _ => rfl

/-! ## Transfers -/

/-- **How far a transfer gets** when it is asked to go on: others notice nothing as long as it
waits, and how it has ended is what it answers. -/
theorem attempt_transfer {run : Run} (h : d.bank.CanProceed spent d.awaits n (.transfer run)) :
    match (d.attempt n (.transfer run)).1 with
    | none => d.bank.Within (.call n) (d.attempt n (.transfer run)).2.bank
    | some reply => ∃ outcome made, reply = .transfer outcome made ∧
        d.bank.Concluded spent d.awaits (.call n) run.request (d.attempt n (.transfer run)).2.bank
          outcome := by
  have hrun := Bank.InFlight.run h
  rw [attempt_reply, attempt_bank]
  unfold Request.proceed
  dsimp only
  generalize (Bank.store (.call n)).run run d.bank = x at hrun ⊢
  obtain ⟨run' | ⟨outcome, made⟩, bank⟩ := x
  · exact hrun.within
  · exact ⟨outcome, made, rfl, hrun.dropped⟩

end Desk

end DoubleEntry
