import DoubleEntry.Proofs.Turns
set_option autoImplicit false

/-! # Units of work of others

What an event leaves of the unit of work of somebody else is all of it: what it has locked, pinned
and staged (`Desk.Sound.work?_after`). That goes for an owner with a pending call as well, as long
as the call is pending, since asking it changes nothing unless it ends.
-/

namespace DoubleEntry

open Function (update update_self update_of_ne)

namespace Bank

variable {spent : Spent} {b : Bank} {awaits : Owner → Option Int} {o p : Owner} {n : Nat}
  {r : Request}

theorem work?_commit (h : b.Sound awaits) (ho : b.IsOpen o) (hp : p ≠ o) :
    (b.commit o).work? p = b.work? p := by
  rw [commit_eq_closed ho (h.locking.once o), work?_closed, if_neg hp]

/-- A call that is carried as far as it gets leaves the units of work of others as they are. -/
theorem CanProceed.work? (h : b.CanProceed spent awaits n r) (hb : b.Sound awaits)
    (hp : p ≠ r.owner n) : (r.proceed n b).2.2.work? p = b.work? p := by
  cases r with
  | addBalance unit account delta =>
      obtain ⟨hopen, -, ha⟩ := h
      exact (hb.addBalance hopen ha delta).1.work? hp
  | updateAccount account balance =>
      obtain ⟨hclosed, ha⟩ := h
      obtain ⟨locks, ⟨heq, -⟩ | ⟨answer, heq, -⟩ | ⟨row, -, -, -, heq, -⟩⟩ :=
        hb.updateAccount_cases (heldBy_of_not_isOpen hclosed) ha balance <;>
      exact congrArg (fun x => x.2.work? p) heq
  | deleteAccount account =>
      obtain ⟨hclosed, ha⟩ := h
      obtain ⟨locks, ⟨heq, -⟩ | ⟨answer, heq, -⟩ | ⟨-, -, -, heq, -⟩⟩ :=
        hb.deleteAccount_cases (heldBy_of_not_isOpen hclosed) ha <;>
      exact congrArg (fun x => x.2.work? p) heq
  | transfer run =>
      have hrun := InFlight.run h
      unfold Request.proceed
      dsimp only
      generalize (store (.call n)).run run b = x at hrun ⊢
      obtain ⟨run' | ⟨outcome, made⟩, b'⟩ := x
      · exact hrun.within.work? hp
      · have hconcluded := hrun.dropped
        cases outcome with
        | completed receipt =>
            obtain ⟨-, b₁, hw, -, hs, ho, -, heq⟩ := hconcluded
            dsimp only
            rw [heq, work?_commit hs ho hp, hw.work? hp]
        | failed e => exact hconcluded.work? hp
        | overflowed => exact hconcluded.work? hp

end Bank

namespace Desk

variable {spent : Spent} {d : Desk} {n : Nat} {r s : Request} {p : Owner} {e : Event}

theorem Sound.work?_call (h : d.Sound spent) (hcan : d.bank.CanProceed spent d.awaits d.next r)
    (hp : p ≠ r.owner d.next) : (d.call r).2.bank.work? p = d.bank.work? p := by
  rw [call_desk, show (d.attempt d.next r).2.count.bank = (d.attempt d.next r).2.bank from rfl,
    attempt_bank, hcan.work? h.bank hp]

theorem Sound.work?_onUnit (h : d.Sound spent) {unit : String}
    (hopen : d.bank.IsOpen (.unit unit)) (hbusy : ¬ d.isBusy unit = true) (action : UnitAction)
    (hp : p ≠ .unit unit) : (d.onUnit unit action).2.bank.work? p = d.bank.work? p := by
  cases action with
  | createTransfer t => exact (h.bank.createTransfer hopen t).2.1.work? hp
  | createEntry x => exact (h.bank.createEntry hopen x).2.1.work? hp
  | addBalance account delta =>
      have hcan : d.bank.CanProceed spent d.awaits d.next (.addBalance unit account delta) :=
        ⟨hopen, h.closed_of_new, .inl (awaits_of_idle (idle_of_not_busy hbusy))⟩
      exact h.work?_call hcan hp
  | commit => exact Bank.work?_commit h.bank hopen hp
  | rollback => exact h.bank.within_rollback.work? hp
  | drop => exact h.bank.within_rollback.work? hp

/-- **An event leaves the unit of work alone** of an owner whose single statement stays pending, if
it is not for this unit of work. -/
theorem Sound.work?_after (h : d.Sound spent) (hr : (n, r) ∈ d.pending)
    (hrun : ∀ run, r ≠ .transfer run) (hs : (n, s) ∈ (d.after e).pending)
    (hother : ∀ unit action, e = .command (.onUnit unit action) → r.owner n ≠ .unit unit) :
    (d.after e).bank.work? (r.owner n) = d.bank.work? (r.owner n) := by
  -- A new call has another number, and the unit of work of a pending adjustment is open.
  have hcall : r.owner n ≠ .call d.next := fun e =>
    Request.call_ne_owner (h.below hr).ne' r e.symm
  have hopen : ∀ {unit}, r.owner n = .unit unit → d.bank.IsOpen (.unit unit) := by
    intro unit e
    have hparked := h.parked hr
    cases r with
    | addBalance u account delta => exact e ▸ hparked
    | _ => cases e
  cases e with
  | command c =>
      show (d.submit c).2.bank.work? (r.owner n) = d.bank.work? (r.owner n)
      cases c with
      | query q => rfl
      | createAccount a =>
          rcases Bank.createAccount_cases d.bank a with ⟨-, -, heq⟩ | ⟨-, account, -, heq⟩ <;>
            exact congrArg (fun x => x.2.work? (r.owner n)) heq
      | updateAccount account balance =>
          have hcan : d.bank.CanProceed spent d.awaits d.next (.updateAccount account balance) :=
            ⟨h.closed_of_new, .inl h.awaits_next⟩
          exact h.work?_call hcan hcall
      | deleteAccount account =>
          have hcan : d.bank.CanProceed spent d.awaits d.next (.deleteAccount account) :=
            ⟨h.closed_of_new, .inl h.awaits_next⟩
          exact h.work?_call hcan hcall
      | begin unit =>
          rcases d.submit_begin_cases unit with ⟨-, heq⟩ | ⟨hclosed, heq⟩
          · rw [heq]
            rfl
          · have hp : r.owner n ≠ .unit unit := fun e => hclosed (hopen e)
            rw [heq]
            exact (Bank.within_begin d.bank _).work? hp
      | onUnit unit action =>
          have hp := hother unit action rfl
          rcases d.submit_onUnit_cases unit action with ⟨refusal, heq⟩ | ⟨hopen, hbusy, heq⟩
          · rw [heq]
            rfl
          · rw [heq]
            exact h.work?_onUnit hopen hbusy action hp
      | transfer t faults => exact h.work?_call (h.canStart t faults) hcall
  | poll m =>
      show (d.poll m).2.bank.work? (r.owner n) = d.bank.work? (r.owner n)
      rcases d.poll_cases m with ⟨-, heq⟩ | ⟨q, hq, -, heq⟩
      · rw [heq]
      · by_cases hm : m = n
        · -- The call itself stays pending, so it has got no further.
          subst hm
          obtain rfl := h.distinct.eq hr hq
          have hnone : (d.poll m).1 = none := by
            replace hs : (m, s) ∈ (d.poll m).2.pending := hs
            rw [heq] at hs ⊢
            rw [attempt_eq] at hs ⊢
            generalize r.proceed m d.bank = x at hs ⊢
            obtain ⟨_ | reply, q', bank⟩ := x
            · rfl
            · exact absurd rfl (mem_dismiss.1 hs).1
          rw [h.poll_of_single hr hrun hnone]
        · rw [heq, attempt_bank]
          exact (h.canProceed hq).work? h.bank fun e => hm (h.distinct.owners hq hr e.symm)
  | cancel m =>
      replace hs : (n, s) ∈ (d.cancel m).2.pending := hs
      show (d.cancel m).2.bank.work? (r.owner n) = d.bank.work? (r.owner n)
      rcases d.cancel_cases m with ⟨-, heq⟩ | ⟨q, hq, -, heq⟩
      · rw [heq]
        rfl
      · rw [heq] at hs ⊢
        replace hs : (n, s) ∈ (d.giveUp m q).pending := hs
        rw [giveUp_pending] at hs
        obtain ⟨-, hw, -⟩ := h.giveUp hq le_rfl
        exact hw.work? fun e => (mem_dismiss.1 hs).1 (h.distinct.owners hr hq e)
  | skip => rfl
  | tick now => rfl

end Desk

end DoubleEntry
