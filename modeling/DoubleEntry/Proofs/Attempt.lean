import DoubleEntry.Proofs.Journal
import DoubleEntry.Proofs.Steps
set_option autoImplicit false

/-! # The steps of one transfer

A transfer is started by a command, which gives it its number, and is then asked to go on until it
ends or is cancelled. `Desk.OwnStep` says which events these are and `Desk.ending?` how the transfer
ends at one of them. All other events leave alone what the transfer has in flight.
-/

namespace DoubleEntry

/-- How a transfer ends: it answers, or it is cancelled before. -/
inductive Ending where
  | answered (outcome : Outcome)
  | cancelled
  deriving DecidableEq, Repr

/-- The receipt of a transfer that was carried out. -/
def Ending.receipt? : Ending → Option Receipt
  | .answered (.completed receipt) => some receipt
  | _ => none

/-- The outcome of a transfer that answered. -/
def Reply.outcome? : Reply → Option Outcome
  | .transfer outcome _ => some outcome
  | _ => none

theorem Store.request_of_waiting {σ : Type} (store : Store σ) (r : Run) (s : σ) :
    Satisfies (fun r' _ => r'.request = r.request) (fun _ _ => True) (store.run r s) := by
  -- That the request stays the same holds from call to call.
  refine Store.run_satisfies (P := fun r' _ => r'.request = r.request) (fun r' s' hr => ?_) rfl
  unfold Store.Leads
  rcases store.answer r' s' with ⟨_ | answer, s''⟩
  · exact hr
  · dsimp only
    cases r'.stage.resume r'.request answer with
    | inl stage => exact hr
    | inr outcome => trivial

namespace Desk

/-- How the transfer with a number ends at an event, if it ends there. -/
def ending? (d : Desk) (k : Nat) : Event → Option Ending
  | .command c =>
      if d.next = k then ((d.submit c).1.reply?.bind Reply.outcome?).map .answered else none
  | .poll n => if n = k then ((d.poll n).1.bind Reply.outcome?).map .answered else none
  | .cancel n => if n = k then (d.pending.lookup n).map fun _ => .cancelled else none
  | .skip | .tick _ => none

/-- A number belongs to a transfer, which is pending or has ended. -/
structure Has (d : Desk) (k : Nat) (t : NewTransfer) : Prop where
  numbered : k < d.next
  request : ∀ {r}, (k, r) ∈ d.pending → ∃ run, r = .transfer run ∧ run.request = t

/-- **A step of a transfer:** it is started, asked to go on, or cancelled. -/
def OwnStep (d : Desk) (k : Nat) (t : NewTransfer) (e : Event) : Prop :=
  (d.next = k ∧ ∃ faults, e = .command (.transfer t faults)) ∨
    (d.Has k t ∧ (e = .poll k ∨ e = .cancel k))

variable {nonNegative : Bool} {spent : Spent} {d : Desk} {k n : Nat} {t : NewTransfer} {r : Request}
  {e : Event}

/-! ## The number of a transfer -/

/-- Carrying a transfer further does not change what it was asked for. -/
theorem request_proceed {run : Run} (n : Nat) (b : Bank) (h : run.request = t) :
    ∃ run', ((Request.transfer run).proceed n b).2.1 = .transfer run' ∧ run'.request = t := by
  have hrun := (Bank.store (.call n)).request_of_waiting run b
  unfold Request.proceed
  dsimp only
  generalize (Bank.store (.call n)).run run b = x at hrun ⊢
  obtain ⟨run' | ⟨outcome, made⟩, b'⟩ := x
  · exact ⟨run', rfl, Eq.trans hrun h⟩
  · exact ⟨run, rfl, h⟩

/-- A transfer keeps its number. -/
theorem Has.after (h : d.Has k t) (e : Event) : (d.after e).Has k t where
  numbered := h.numbered.trans_le (d.next_le_after e)
  request hr := by
    refine pending_of_old (Q := fun r => ∃ run, r = .transfer run ∧ run.request = t) ?_
      h.numbered h.request [e] hr
    rintro _ b ⟨run, rfl, hrun⟩
    exact request_proceed k b hrun

/-- A transfer that is started gets the next number. -/
theorem Sound.has_start (h : d.Sound spent) (t : NewTransfer) (faults : List Fault) :
    (d.after (.command (.transfer t faults))).Has d.next t where
  numbered := (Nat.lt_succ_self _).trans_le (d.next_submit _).ge
  request hr := by
    refine pending_after (P := fun m r => m = d.next → ∃ run, r = .transfer run ∧ run.request = t)
      (fun {n r} b hr hn => ?_) (fun {c r} hc hrequest _ => ?_) (fun hs hn => ?_) hr rfl
    · obtain ⟨run, rfl, hrun⟩ := hr hn
      exact request_proceed n b hrun
    · obtain rfl := Event.command.inj hc
      obtain rfl := Option.some.inj hrequest
      exact ⟨_, rfl, rfl⟩
    · exact absurd hn (h.below hs).ne

theorem Has.afterAll (h : d.Has k t) (es : List Event) : (d.afterAll es).Has k t := by
  induction es generalizing d with
  | nil => exact h
  | cons e es ih => exact ih (h.after e)

/-- A transfer ends at a step of its own. -/
theorem Has.ownStep_of_ending (h : d.Has k t) {ending : Ending}
    (he : d.ending? k e = some ending) : d.OwnStep k t e := by
  cases e with
  | command c =>
      rw [show d.ending? k (.command c) = none from if_neg h.numbered.ne'] at he
      cases he
  | poll m =>
      by_cases hm : m = k
      · exact .inr ⟨h, .inl (by rw [hm])⟩
      · rw [show d.ending? k (.poll m) = none from if_neg hm] at he
        cases he
  | cancel m =>
      by_cases hm : m = k
      · exact .inr ⟨h, .inr (by rw [hm])⟩
      · rw [show d.ending? k (.cancel m) = none from if_neg hm] at he
        cases he
  | skip => cases he
  | tick now => cases he

/-- An event is a step of a transfer or leaves it alone. -/
theorem Has.ownStep_or (h : d.Has k t) (e : Event) :
    d.OwnStep k t e ∨ .call k ≠ d.actor e := by
  have hnext : (.call k : Owner) ≠ .call d.next := fun hk => h.numbered.ne (Owner.call.inj hk)
  have hlookup : ∀ m, m ≠ k →
      (.call k : Owner) ≠ ((d.pending.lookup m).map fun r => r.owner m).getD (.call m) := by
    intro m hm
    cases hl : d.pending.lookup m with
    | none => exact fun hk => hm (Owner.call.inj hk).symm
    | some r => exact Request.call_ne_owner (Ne.symm hm) r
  cases e with
  | command c =>
      right
      cases c with
      | begin unit => simp [actor]
      | onUnit unit action => simp [actor]
      | _ => exact hnext
  | poll m =>
      by_cases hm : m = k
      · exact .inl (.inr ⟨h, .inl (by rw [hm])⟩)
      · exact .inr (hlookup m hm)
  | cancel m =>
      by_cases hm : m = k
      · exact .inl (.inr ⟨h, .inr (by rw [hm])⟩)
      · exact .inr (hlookup m hm)
  | skip => exact .inr hnext
  | tick now => exact .inr hnext

/-! ## What a step of a transfer does -/

/-- What a step of a transfer leads to: others notice nothing as long as it waits, nor when it ends
without having been carried out. -/
def Moved (spent : Spent) (d : Desk) (k : Nat) (t : NewTransfer) (d' : Desk) : Option Ending → Prop
  | none => d.bank.Within (.call k) d'.bank
  | some (.answered (.completed receipt)) =>
      d.bank.Concluded spent d.awaits (.call k) t d'.bank (.completed receipt)
  | some _ => d.bank.Within (.call k) d'.bank ∧ d'.pending = (d.dismiss k).pending

theorem Moved.within {d' : Desk} {ending : Option Ending} (h : d.Moved spent k t d' ending)
    (hending : ending.bind Ending.receipt? = none) : d.bank.Within (.call k) d'.bank := by
  rcases ending with _ | ⟨⟨receipt⟩ | error | _⟩ | _
  · exact h
  · cases hending
  · exact h.1
  · exact h.1
  · exact h.1

/-- A transfer that was carried out is committed as a whole. -/
theorem Moved.completed {d' : Desk} {ending : Option Ending} {receipt : Receipt}
    (h : d.Moved spent k t d' ending) (hending : ending.bind Ending.receipt? = some receipt) :
    receipt.Fits t ∧ d.bank.ledger.Allows d.bank.nonNegative (.committed (receipt.deeds t)) ∧
      d'.bank.ledger = d.bank.ledger.apply (.committed (receipt.deeds t)) ∧
      ¬ d'.bank.IsOpen (.call k) := by
  rcases ending with _ | ⟨⟨receipt'⟩ | error | _⟩ | _
  · cases hending
  · obtain rfl := Option.some.inj hending
    obtain ⟨hfits, b₁, hw, hf, hs, ho, hdeeds, heq⟩ := h
    have hperforms := hdeeds.performs hs hf ho
    rw [← heq] at hperforms
    refine ⟨hfits, ?_, ?_, ?_⟩
    · rw [← hw.ledger, ← hw.nonNegative]
      exact Ledger.allowsAll_singleton.1 hperforms.allowed
    · rw [← hw.ledger]
      exact hperforms.ledger
    · rw [heq]
      exact Bank.not_isOpen_commit hs ho
  · cases hending
  · cases hending
  · cases hending

theorem moved_attempt {run : Run} (h : d.bank.CanProceed spent d.awaits k (.transfer run)) :
    d.Moved spent k run.request (d.attempt k (.transfer run)).2
      (((d.attempt k (.transfer run)).1.bind Reply.outcome?).map .answered) := by
  have hattempt := attempt_transfer h
  -- A call that replies is pending no more.
  have hpending : ∀ reply, (d.attempt k (.transfer run)).1 = some reply →
      (d.attempt k (.transfer run)).2.pending = (d.dismiss k).pending := by
    rw [attempt_eq]
    rcases (Request.transfer run).proceed k d.bank with ⟨_ | answer, r', bank⟩
    · exact fun reply hreply => nomatch hreply
    · exact fun reply _ => rfl
  cases hreply : (d.attempt k (.transfer run)).1 with
  | none =>
      rw [hreply] at hattempt
      exact hattempt
  | some reply =>
      rw [hreply] at hattempt
      obtain ⟨outcome, made, rfl, hconcluded⟩ := hattempt
      have hdismiss := hpending _ hreply
      cases outcome with
      | completed receipt => exact hconcluded
      | failed error => exact ⟨hconcluded, hdismiss⟩
      | overflowed => exact ⟨hconcluded, hdismiss⟩

/-- **What a step of a transfer does.** -/
theorem Sound.moved (h : d.Sound spent) (hstep : d.OwnStep k t e) :
    d.Moved spent k t (d.after e) (d.ending? k e) := by
  rcases hstep with ⟨rfl, faults, rfl⟩ | ⟨hk, rfl | rfl⟩
  · -- The transfer is started.
    have hmoved := moved_attempt (h.canStart t faults)
    have hreply := d.reply?_call (.transfer { request := t, faults })
    have hdesk := d.call_desk (.transfer { request := t, faults })
    rw [← hreply] at hmoved
    rw [show d.ending? d.next (.command (.transfer t faults)) = _ from if_pos rfl]
    show d.Moved spent d.next t (d.call _).2 _
    rw [hdesk]
    exact hmoved
  · -- It is asked to go on.
    rw [show d.ending? k (.poll k) = _ from if_pos rfl]
    show d.Moved spent k t (d.poll k).2 _
    rcases d.poll_cases k with ⟨-, heq⟩ | ⟨r, hr, -, heq⟩
    · rw [heq]
      exact .refl _ _
    · rw [heq]
      obtain ⟨run, rfl, rfl⟩ := hk.request hr
      exact moved_attempt (h.canProceed hr)
  · -- It is cancelled.
    rw [show d.ending? k (.cancel k) = _ from if_pos rfl]
    show d.Moved spent k t (d.cancel k).2 _
    rcases d.cancel_cases k with ⟨hl, heq⟩ | ⟨r, hr, hl, heq⟩
    · rw [heq, hl]
      exact .refl _ _
    · rw [heq, hl]
      obtain ⟨run, rfl, rfl⟩ := hk.request hr
      obtain ⟨-, hw, -⟩ := h.giveUp hr le_rfl
      exact ⟨hw, d.giveUp_pending k _⟩

end Desk

end DoubleEntry
