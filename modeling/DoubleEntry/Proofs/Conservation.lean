import DoubleEntry.Proofs.Books
import DoubleEntry.Proofs.Serializability
import DoubleEntry.Proofs.Steps
set_option autoImplicit false

/-! # Conservation of money

A bank whose balances are changed by transfers alone neither makes nor loses money. Units of work
may lock and adjust rows and stage records as long as they are not committed, and no balance is set
directly (`Event.conserves`); then the books of the bank are balanced after every run, whatever
waits, fails or is given up in it.
-/

namespace DoubleEntry

/-- Nothing but the opening and deleting of accounts and transfers changes what is committed: no
balance is set, and no unit of work with a name is committed. -/
def Event.conserves : Event → Bool
  | .command (.updateAccount _ _) => false
  | .command (.onUnit _ .commit) => false
  | _ => true

/-- A call that sets no balance. -/
def Request.Conserves (r : Request) : Prop := ∀ a balance, r ≠ .updateAccount a balance

theorem Request.Conserves.proceed {r : Request} (h : r.Conserves) (n : Nat) (b : Bank) :
    (r.proceed n b).2.1.Conserves := by
  cases r with
  | transfer run =>
      unfold Request.proceed
      dsimp only
      rcases (Bank.store (.call n)).run run b with ⟨_ | ⟨outcome, made⟩, b'⟩ <;>
        exact fun a balance => Request.noConfusion
  | _ => exact h

/-- Unless a unit of work is committed, what takes effect is what the reply says. -/
theorem Journal.effects_note (j : Journal) {c : Command} (hc : ∀ u, c ≠ .onUnit u .commit)
    (reply : Reply) : (j.note c reply).effects = j.effects ++ Effect.of c reply := by
  cases c with
  | onUnit u action =>
      show (j.noteUnit u action reply).effects = j.effects ++ []
      rw [List.append_nil]
      unfold Journal.noteUnit
      split <;> first | rfl | exact absurd rfl (hc u)
  | begin u =>
      show _ = j.effects ++ []
      rw [List.append_nil]
      unfold Journal.note
      split <;> simp_all [Journal.draft, Effect.of]
  | _ => rfl

/-- What the reply to a command says is booked if it sets no balance, and what it says of a transfer
is what was asked for. -/
theorem Effect.booked_of {c : Command} {reply : Reply}
    (hc : ∀ a balance, c ≠ .updateAccount a balance)
    (ht : ∀ n faults receipt made, c = .transfer n faults →
      reply = .transfer (.completed receipt) made → receipt.Fits n) :
    ∀ f ∈ Effect.of c reply, f.Booked := by
  intro f hf
  unfold Effect.of at hf
  split at hf
  · rw [List.mem_singleton.1 hf]
    trivial
  · exact absurd rfl (hc _ _)
  · rw [List.mem_singleton.1 hf]
    trivial
  · rw [List.mem_singleton.1 hf]
    exact ⟨_, _, rfl, ht _ _ _ _ rfl rfl⟩
  · cases hf

/-- A transfer that was carried out is the one that was asked for. -/
theorem Desk.fits_of_attempt {spent : Spent} {d : Desk} {n : Nat} {r : Request} {t : NewTransfer}
    {faults : List Fault} {receipt : Receipt} {made : List Call}
    (hcan : d.bank.CanProceed spent d.awaits n r) (hr : r.command = .transfer t faults)
    (hreply : (d.attempt n r).1 = some (.transfer (.completed receipt) made)) :
    receipt.Fits t := by
  cases r with
  | transfer run =>
      obtain ⟨rfl, -⟩ := Command.transfer.inj hr
      have hattempt := attempt_transfer hcan
      rw [hreply] at hattempt
      obtain ⟨outcome, made', heq, hconcluded⟩ := hattempt
      obtain ⟨rfl, -⟩ := Reply.transfer.inj heq
      exact hconcluded.1
  | _ => cases hr

namespace History

/-- **A history in which balances are changed by transfers alone.** -/
structure Conserving (s : History) : Prop where
  pending : ∀ {n r}, (n, r) ∈ s.desk.pending → r.Conserves
  booked : ∀ f ∈ s.journal.effects, f.Booked

variable {spent : Spent} {nonNegative : Bool} {s : History} {e : Event}

theorem Conserving.note (h : s.Conserving) {c : Command} {reply : Option Reply}
    (hcommit : ∀ u, c ≠ .onUnit u .commit) (hupdate : ∀ a balance, c ≠ .updateAccount a balance)
    (ht : ∀ n faults receipt made, c = .transfer n faults →
      reply = some (.transfer (.completed receipt) made) → receipt.Fits n) :
    ∀ f ∈ (reply.elim s.journal (s.journal.note c)).effects, f.Booked := by
  cases reply with
  | none => exact h.booked
  | some reply =>
      intro f hf
      rw [Option.elim_some, Journal.effects_note _ hcommit, List.mem_append] at hf
      rcases hf with hf | hf
      · exact h.booked f hf
      · exact Effect.booked_of hupdate (fun n faults receipt made hc hr =>
          ht n faults receipt made hc (congrArg some hr)) f hf

/-- Whatever happens in such a history, short of setting a balance and committing a unit of work. -/
theorem Conserving.after (h : s.Conserving) (hs : s.Sound spent nonNegative) (he : e.conserves) :
    (s.after e).Conserving where
  pending := by
    intro n r hr
    refine Desk.pending_after (P := fun _ r => r.Conserves) (fun b hr => hr.proceed _ b)
      (fun {c r} hc hrequest => ?_) h.pending hr
    subst hc
    cases c with
    | updateAccount a balance => cases he
    | onUnit u action =>
        cases action with
        | addBalance account delta =>
            obtain rfl := Option.some.inj hrequest
            exact fun a balance => Request.noConfusion
        | _ => cases hrequest
    | deleteAccount a =>
        obtain rfl := Option.some.inj hrequest
        exact fun a balance => Request.noConfusion
    | transfer n faults =>
        obtain rfl := Option.some.inj hrequest
        exact fun a balance => Request.noConfusion
    | _ => cases hrequest
  booked := by
    cases e with
    | command c =>
        refine h.note (fun u hc => ?_) (fun a balance hc => ?_)
          fun n faults receipt made hc hr => ?_
        · rw [hc] at he
          cases he
        · rw [hc] at he
          cases he
        · subst hc
          have hreply := s.desk.reply?_call (.transfer { request := n, faults })
          exact Desk.fits_of_attempt (hs.desk.canStart n faults) rfl (hreply.symm.trans hr)
    | poll number =>
        -- The reply is noted for the command from which the pending call stems.
        rcases s.after_poll_cases number with heq | ⟨r, hr, heq⟩
        · rw [heq]
          exact h.booked
        · rw [heq]
          refine h.note (fun u hc => ?_) (fun a balance hc => ?_)
            fun n faults receipt made hc hreply =>
              Desk.fits_of_attempt (hs.desk.canProceed hr) hc hreply
          · cases r <;> cases hc
          · cases r with
            | updateAccount a' balance' => exact h.pending hr a' balance' rfl
            | _ => cases hc
    | _ => exact h.booked

theorem conserving_run (nonNegative : Bool) {es : List Event} (h : ∀ e ∈ es, e.conserves) :
    (run nonNegative es).Conserving := by
  induction es using List.reverseRecOn with
  | nil => exact ⟨fun hr => (nomatch hr), fun f hf => (nomatch hf)⟩
  | append_singleton es e ih =>
      have hrest := ih fun e he => h e (List.mem_append_left _ he)
      have hsound := sound_run nonNegative es
      unfold run at hrest hsound ⊢
      rw [List.foldl_append]
      exact hrest.after hsound (h e (by simp))

/-- **Money is conserved.** In a run in which balances are changed by transfers alone, the committed
entries are the two sides of the committed transfers, each balance is the opening balance plus the
entries of the account, and all balances together are the opening balances of the accounts that
exist. -/
theorem balanced_run (nonNegative : Bool) (es : List Event) (h : ∀ e ∈ es, e.conserves) :
    ((Desk.opening nonNegative).afterAll es).bank.ledger.Balanced
      (Effect.openings (run nonNegative es).journal.effects) := by
  have hsound := sound_run nonNegative es
  rw [← desk_run, hsound.ledger]
  exact Ledger.balanced_empty.applyAll hsound.allowed (conserving_run nonNegative h).booked

/-- Two transfers in opposite directions wait for a unit of work that is rolled back; one of them is
cancelled, the other carried out. -/
theorem balanced_run_contended :
    let es : List Event := [.command (.createAccount ⟨"a", 100, .usd⟩),
      .command (.createAccount ⟨"b", 50, .usd⟩), .command (.begin "u"),
      .command (.onUnit "u" (.addBalance 2 7)), .command (.transfer ⟨1, 2, 30⟩ []),
      .command (.transfer ⟨2, 1, 20⟩ []), .cancel 4, .command (.onUnit "u" .rollback), .poll 5]
    ((∀ e ∈ es, e.conserves) ∧
      ((Desk.opening true).afterAll es).bank.ledger.accounts.toList.map Account.balance =
        [120, 30] ∧
      (Effect.openings (run true es).journal.effects).toList = [100, 50]) ∧
    ((Desk.opening true).afterAll es).bank.ledger.Balanced
      (Effect.openings (run true es).journal.effects) :=
  ⟨⟨by decide, by decide +kernel, by decide +kernel⟩, balanced_run true _ (by decide)⟩

end History

end DoubleEntry
