import DoubleEntry.Proofs.Conservation
import DoubleEntry.Proofs.Moves
set_option autoImplicit false

/-! # Balances fit in 64 bits

A balance is set when an account is opened or updated, and otherwise adjusted. An adjustment is
rejected when the new balance is out of range, so as long as the balances that are set are in range,
all committed balances are.
-/

namespace DoubleEntry

/-- An effect that sets no balance out of range. -/
def Effect.Ranged : Effect → Prop
  | .opened n _ => Amount.InRange n.balance
  | .updated _ balance _ => Amount.InRange balance
  | .deleted _ | .committed _ => True

/-- A command that sets no balance out of range. -/
def Command.Ranged : Command → Prop
  | .createAccount n => Amount.InRange n.balance
  | .updateAccount _ balance => Amount.InRange balance
  | _ => True

/-- An event that sets no balance out of range. -/
def Event.Ranged : Event → Prop
  | .command c => c.Ranged
  | _ => True

/-- A move that sets no balance out of range. -/
def Move.Ranged : Move → Prop
  | .createAccount n => Amount.InRange n.balance
  | .updateAccount _ _ balance => Amount.InRange balance
  | _ => True

instance (c : Command) : Decidable c.Ranged :=
  match c with
  | .createAccount n => inferInstanceAs (Decidable (Amount.InRange n.balance))
  | .updateAccount _ balance => inferInstanceAs (Decidable (Amount.InRange balance))
  | .query _ | .deleteAccount _ | .begin _ | .onUnit _ _ | .transfer _ _ =>
      inferInstanceAs (Decidable True)

instance (e : Event) : Decidable e.Ranged :=
  match e with
  | .command c => inferInstanceAs (Decidable c.Ranged)
  | .poll _ | .cancel _ | .skip | .tick _ => inferInstanceAs (Decidable True)

instance (m : Move) : Decidable m.Ranged :=
  match m with
  | .createAccount n => inferInstanceAs (Decidable (Amount.InRange n.balance))
  | .updateAccount _ _ balance => inferInstanceAs (Decidable (Amount.InRange balance))
  | .call _ _ | .leave _ | .drop _ | .deleteAccount _ _ | .tick _ =>
      inferInstanceAs (Decidable True)

/-- What the reply to a command says takes effect sets a balance only if the command does. -/
theorem Effect.ranged_of {c : Command} (hc : c.Ranged) (reply : Reply) :
    ∀ f ∈ Effect.of c reply, f.Ranged := by
  intro f hf
  unfold Effect.of at hf
  split at hf
  · rw [List.mem_singleton.1 hf]
    exact hc
  · rw [List.mem_singleton.1 hf]
    exact hc
  · rw [List.mem_singleton.1 hf]
    trivial
  · rw [List.mem_singleton.1 hf]
    trivial
  · cases hf

theorem Effect.Ranged.set {e : Effect} (h : e.Ranged) {b : Int} (hb : e.set? = some b) :
    Amount.InRange b := by
  cases e with
  | opened n answer => exact Option.some.inj hb ▸ h
  | updated a balance answer => exact Option.some.inj hb ▸ h
  | _ => cases hb

/-- Every committed balance is in range. -/
def Ledger.Ranged (l : Ledger) : Prop := l.Balances Amount.InRange

theorem Ledger.Ranged.applyAll {nonNegative : Bool} {l : Ledger} {es : List Effect} (h : l.Ranged)
    (hes : l.AllowsAll nonNegative es) (hr : ∀ e ∈ es, e.Ranged) : (l.applyAll es).Ranged :=
  Balances.applyAll (fun _ hrange _ => hrange) h hes fun e he _ hb _ => (hr e he).set hb

/-! ## Call by call -/

namespace Hall

theorem ranged_effects {m : Move} (hm : m.Ranged) (h : Hall) : ∀ f ∈ h.effects m, f.Ranged := by
  have statement : ∀ {r : Request} {number : Nat}, r.command.Ranged →
      ∀ f ∈ r.effects number h.bank, f.Ranged := by
    intro r number hr f hf
    unfold Request.effects at hf
    cases hreply : (r.proceed number h.bank).1 with
    | none =>
        rw [hreply] at hf
        cases hf
    | some reply =>
        rw [hreply] at hf
        exact Effect.ranged_of hr reply f hf
  intro f hf
  cases m with
  | call o c =>
      cases c with
      | commit =>
          by_cases hc : h.MayCall o .commit
          · rw [show h.effects (.call o .commit) = [.committed (h.deeds o)] from if_pos hc] at hf
            rw [List.mem_singleton.1 hf]
            trivial
          · rw [show h.effects (.call o .commit) = [] from if_neg hc] at hf
            cases hf
      | _ => cases hf
  | createAccount n =>
      replace hf : f ∈ Effect.ofOpening n (h.bank.createAccount n).1 := hf
      cases hanswer : (h.bank.createAccount n).1 with
      | error e =>
          rw [hanswer] at hf
          cases hf
      | ok account =>
          rw [hanswer] at hf
          rw [List.mem_singleton.1 hf]
          exact hm
  | updateAccount number account balance =>
      by_cases hmay : h.MayState number account
      · rw [show h.effects (.updateAccount number account balance) = _ from if_pos hmay] at hf
        exact statement (r := .updateAccount account balance) hm f hf
      · rw [show h.effects (.updateAccount number account balance) = [] from if_neg hmay] at hf
        cases hf
  | deleteAccount number account =>
      by_cases hmay : h.MayState number account
      · rw [show h.effects (.deleteAccount number account) = _ from if_pos hmay] at hf
        exact statement (r := .deleteAccount account) trivial f hf
      · rw [show h.effects (.deleteAccount number account) = [] from if_neg hmay] at hf
        cases hf
  | _ => cases hf

theorem ranged_trace {ms : List Move} (hms : ∀ m ∈ ms, m.Ranged) (h : Hall) :
    ∀ f ∈ h.trace effects ms, f.Ranged := by
  induction ms generalizing h with
  | nil => exact fun f hf => nomatch hf
  | cons m ms ih =>
      obtain ⟨hm, hrest⟩ := List.forall_mem_cons.1 hms
      exact List.forall_mem_append.2 ⟨ranged_effects hm h, ih hrest (h.after m)⟩

/-- **Committed balances are in range** after any moves that set none out of range. -/
theorem ranged_run (nonNegative : Bool) {ms : List Move} (hms : ∀ m ∈ ms, m.Ranged) :
    ((opening nonNegative).afterAll ms).bank.ledger.Ranged := by
  obtain ⟨hledger, hallowed, -⟩ := (sound_opening nonNegative).brings_all ms
  rw [hledger]
  exact Ledger.Ranged.applyAll .empty hallowed (ranged_trace hms _)

end Hall

/-! ## At a desk -/

theorem Journal.ranged_note {j : Journal} (hj : ∀ f ∈ j.effects, f.Ranged) {c : Command}
    (hc : c.Ranged) (reply : Reply) : ∀ f ∈ (j.note c reply).effects, f.Ranged := by
  by_cases hcommit : ∃ u, c = .onUnit u .commit
  · obtain ⟨u, rfl⟩ := hcommit
    show ∀ f ∈ (j.noteUnit u .commit reply).effects, f.Ranged
    cases reply with
    | done value =>
        refine List.forall_mem_append.2 ⟨hj, fun f hf => ?_⟩
        rw [List.mem_singleton.1 hf]
        trivial
    | _ => exact hj
  · rw [j.effects_note (fun u e => hcommit ⟨u, e⟩)]
    exact List.forall_mem_append.2 ⟨hj, Effect.ranged_of hc reply⟩

theorem Request.ranged_proceed {r : Request} (hr : r.command.Ranged) (n : Nat) (b : Bank) :
    (r.proceed n b).2.1.command.Ranged := by
  cases r with
  | transfer run =>
      unfold Request.proceed
      dsimp only
      rcases (Bank.store (.call n)).run run b with ⟨_ | ⟨outcome, made⟩, b'⟩ <;> trivial
  | _ => exact hr

namespace History

/-- A history in which no balance is set out of range. -/
structure Ranged (s : History) : Prop where
  pending : ∀ {n r}, (n, r) ∈ s.desk.pending → r.command.Ranged
  effects : ∀ f ∈ s.journal.effects, f.Ranged

variable {s : History} {e : Event}

theorem Ranged.after (h : s.Ranged) (he : e.Ranged) : (s.after e).Ranged where
  pending := by
    intro n r hr
    refine Desk.pending_after (P := fun _ r => r.command.Ranged)
      (fun b hr => Request.ranged_proceed hr _ b) (fun {c r} hc hrequest => ?_) h.pending hr
    subst hc
    cases c with
    | onUnit u action =>
        cases action with
        | addBalance account delta =>
            obtain rfl := Option.some.inj hrequest
            trivial
        | _ => cases hrequest
    | updateAccount a balance =>
        obtain rfl := Option.some.inj hrequest
        exact he
    | deleteAccount a =>
        obtain rfl := Option.some.inj hrequest
        trivial
    | transfer n faults =>
        obtain rfl := Option.some.inj hrequest
        trivial
    | _ => cases hrequest
  effects := by
    have noted : ∀ {c : Command} (reply : Option Reply), c.Ranged →
        ∀ f ∈ (reply.elim s.journal (s.journal.note c)).effects, f.Ranged := by
      intro c reply hc
      cases reply with
      | none => exact h.effects
      | some reply => exact Journal.ranged_note h.effects hc reply
    cases e with
    | command c => exact noted _ he
    | poll number =>
        rcases s.after_poll_cases number with heq | ⟨r, hr, heq⟩
        · rw [heq]
          exact h.effects
        · rw [heq]
          exact noted _ (h.pending hr)
    | _ => exact h.effects

theorem ranged_run (nonNegative : Bool) {es : List Event} (hes : ∀ e ∈ es, e.Ranged) :
    (run nonNegative es).Ranged := by
  induction es using List.reverseRecOn with
  | nil => exact ⟨fun hr => (nomatch hr), fun f hf => (nomatch hf)⟩
  | append_singleton es e ih =>
      have hrest := ih fun e he => hes e (List.mem_append_left _ he)
      unfold run at hrest ⊢
      rw [List.foldl_append]
      exact hrest.after (hes e (by simp))

end History

/-- **Committed balances are in range** at a desk at which none is set out of range. -/
theorem Desk.ranged_run (nonNegative : Bool) {es : List Event} (hes : ∀ e ∈ es, e.Ranged) :
    ((Desk.opening nonNegative).afterAll es).bank.ledger.Ranged := by
  have hsound := History.sound_run nonNegative es
  rw [← History.desk_run, hsound.ledger]
  exact Ledger.Ranged.applyAll .empty hsound.allowed (History.ranged_run nonNegative hes).effects

end DoubleEntry
