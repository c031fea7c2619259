import DoubleEntry.Proofs.Ranges
import DoubleEntry.Proofs.Solvency
import DoubleEntry.Proofs.Uncontended
set_option autoImplicit false

/-! # What an uncontended transfer comes to

A transfer that finds the rows of its two accounts unlocked is carried out or fails at once, and
which of the two, and for what reason, is a question of the committed ledger (`Ledger.Settles`). The
two new balances have to be allowed; if not, the account with the lowest number that may not have
its new balance is named. A transfer from an account to itself credits the account before it debits
it, so the balance in between is at stake, while the last one is the balance that the account has.
-/

namespace DoubleEntry

open Function (update update_self update_eq_self)

/-- The new balances that a transfer is checked for, each with its account. If money goes from an
account to itself, the account is credited first. -/
def NewTransfer.drafts (n : NewTransfer) (source target : Account) : List (Int × Int) :=
  if n.source = n.target then [(n.target, target.balance + n.amount)]
  else [(n.source, source.balance - n.amount), (n.target, target.balance + n.amount)]

namespace Ledger

/-- **What an uncontended transfer comes to,** as far as it can be foretold from the ledger. -/
structure Settles (nonNegative : Bool) (l : Ledger) (n : NewTransfer) (outcome : Outcome) :
    Prop where
  noSource : l.accounts.contains n.source = false →
    outcome = .failed (.constraintViolation (.missingAccount .transfer n.source))
  noTarget : l.accounts.contains n.source = true → l.accounts.contains n.target = false →
    outcome = .failed (.constraintViolation (.missingAccount .transfer n.target))
  overflowed : l.accounts.contains n.source = true → l.accounts.contains n.target = true →
    (outcome = .overflowed ↔ n.amount = Amount.least)
  completed : ∀ {x y}, l.accounts.get? n.source = some x → l.accounts.get? n.target = some y →
    n.amount ≠ Amount.least → ((∃ receipt, outcome = .completed receipt) ↔
      ∀ p ∈ n.drafts x y, Amount.Allowed nonNegative p.2)
  /-- The account with the lowest number whose new balance is not allowed is the reason. -/
  rejected : ∀ {x y}, l.accounts.get? n.source = some x → l.accounts.get? n.target = some y →
    n.amount ≠ Amount.least → ∀ p ∈ n.drafts x y, ¬ Amount.Allowed nonNegative p.2 →
      (∀ q ∈ n.drafts x y, q.1 < p.1 → Amount.Allowed nonNegative q.2) →
      outcome = .failed (.constraintViolation (.ofBalance p.1 p.2))

/-- **What a transfer that was carried out has changed:** one transfer and two entries are new, the
one account has the amount less and the other more, and nothing else is different. -/
structure Transferred (n : NewTransfer) (r : Receipt) (l l' : Ledger) : Prop where
  fits : r.Fits n
  transfer : l.transfers.get? r.transfer.id = none ∧
    l'.transfers = l.transfers.insert r.transfer.id r.transfer
  entries : r.debit.id ≠ r.credit.id ∧ l.entries.get? r.debit.id = none ∧
    l.entries.get? r.credit.id = none ∧
    l'.entries = (l.entries.insert r.debit.id r.debit).insert r.credit.id r.credit
  accounts : ∀ a, l'.accounts.get? a = (l.accounts.get? a).map fun x => x.plus
    ((if a = n.target then n.amount else 0) + if a = n.source then -n.amount else 0)

variable {nonNegative : Bool} {l : Ledger} {n : NewTransfer} {x y : Account} {v : Violation}
  {outcome : Outcome}

/-- The first adjustment makes the first draft. The second makes the other, if there is one;
otherwise it leads back to the balance that the account has. -/
theorem mem_drafts (hx : l.accounts.get? n.source = some x)
    (hy : l.accounts.get? n.target = some y) : ∃ z w,
      l.accounts.get? n.adjustments.1.account = some z ∧
      l.accounts.get? n.adjustments.2.account = some w ∧
      (n.source = n.target → n.lastChange = 0) ∧
      ∀ p, p ∈ n.drafts x y ↔ p = (n.adjustments.1.account, z.balance + n.adjustments.1.delta) ∨
        n.source ≠ n.target ∧ p = (n.adjustments.2.account, w.balance + n.lastChange) := by
  unfold NewTransfer.lastChange NewTransfer.drafts NewTransfer.adjustments
  -- The numbers of the accounts decide which side is adjusted first.
  rcases lt_trichotomy n.source n.target with hlt | heq | hgt
  · refine ⟨x, y, ?_, ?_, fun e => absurd e hlt.ne, fun p => ?_⟩
    · rwa [if_pos hlt]
    · rwa [if_pos hlt]
    · simp [hlt, hlt.ne, NewTransfer.debit, NewTransfer.credit, sub_eq_add_neg]
  · refine ⟨y, x, ?_, ?_, fun _ => ?_, fun p => ?_⟩
    · rwa [if_neg heq.not_lt]
    · rwa [if_neg heq.not_lt]
    · simp [heq, NewTransfer.debit, NewTransfer.credit]
    · simp [heq, NewTransfer.credit]
  · refine ⟨y, x, ?_, ?_, fun e => absurd e hgt.ne', fun p => ?_⟩
    · rwa [if_neg hgt.not_gt]
    · rwa [if_neg hgt.not_gt]
    · simp [hgt.not_gt, hgt.ne', NewTransfer.debit, NewTransfer.credit, sub_eq_add_neg, or_comm]

/-- A transfer that is carried out has new balances that are allowed. -/
theorem Grants.drafts (hfirst : l.Grants nonNegative n.adjustments.1.account n.adjustments.1.delta)
    (hsecond : l.Grants nonNegative n.adjustments.2.account n.lastChange)
    (hx : l.accounts.get? n.source = some x) (hy : l.accounts.get? n.target = some y) :
    ∀ p ∈ n.drafts x y, Amount.Allowed nonNegative p.2 := by
  obtain ⟨z, w, hz, hw, -, hmem⟩ := mem_drafts hx hy
  obtain ⟨z', hz', hfirst⟩ := hfirst
  obtain ⟨w', hw', hsecond⟩ := hsecond
  obtain rfl := Option.some.inj (hz.symm.trans hz')
  obtain rfl := Option.some.inj (hw.symm.trans hw')
  intro p hp
  rcases (hmem p).1 hp with rfl | ⟨-, rfl⟩
  · exact hfirst
  · exact hsecond

/-- **The account with the lowest number** whose new balance is not allowed is why a transfer whose
accounts exist is rejected. -/
theorem Objects.drafts (h : l.Objects nonNegative n v)
    (hself : ∀ x, n.source = n.target → l.accounts.get? n.source = some x →
      Amount.Allowed nonNegative x.balance)
    (hx : l.accounts.get? n.source = some x) (hy : l.accounts.get? n.target = some y) :
    ∃ p ∈ n.drafts x y, ¬ Amount.Allowed nonNegative p.2 ∧ v = .ofBalance p.1 p.2 ∧
      ∀ q ∈ n.drafts x y, q ≠ p → Amount.Allowed nonNegative q.2 ∨ p.1 < q.1 := by
  obtain ⟨z, w, hz, hw, hback, hmem⟩ := mem_drafts hx hy
  cases h with
  | source missing => simp [Table.contains, hx] at missing
  | target source missing => simp [Table.contains, hy] at missing
  | first feasible denied =>
      obtain ⟨z', hz', hdenied, rfl⟩ := denied
      obtain rfl := Option.some.inj (hz.symm.trans hz')
      refine ⟨_, (hmem _).2 (.inl rfl), hdenied, rfl, fun q hq hqp => .inr ?_⟩
      -- The accounts are adjusted in the order of their numbers.
      rcases (hmem q).1 hq with rfl | ⟨hne, rfl⟩
      · exact absurd rfl hqp
      · exact lt_of_le_of_ne n.adjustments_ordered fun e => hne (n.adjustments_eq_iff.1 e)
  | second feasible granted denied =>
      obtain ⟨z', hz', hgranted⟩ := granted
      obtain ⟨w', hw', hdenied, rfl⟩ := denied
      obtain rfl := Option.some.inj (hz.symm.trans hz')
      obtain rfl := Option.some.inj (hw.symm.trans hw')
      have hne : n.source ≠ n.target := by
        -- Back at the balance that it has, an account is never refused.
        intro hsame
        refine hdenied ?_
        rw [hback hsame, add_zero]
        refine hself w hsame ?_
        rcases n.adjustments_account.2 with e | e
        · rwa [e] at hw
        · rwa [e, ← hsame] at hw
      refine ⟨_, (hmem _).2 (.inr ⟨hne, rfl⟩), hdenied, rfl, fun q hq hqp => .inl ?_⟩
      rcases (hmem q).1 hq with rfl | ⟨-, rfl⟩
      · exact hgranted
      · exact absurd rfl hqp

/-- What is foreseen is what a transfer comes to. -/
theorem Settles.of_foreseen (h : outcome.Foreseen nonNegative l n)
    (hself : ∀ x, n.source = n.target → l.accounts.get? n.source = some x →
      Amount.Allowed nonNegative x.balance) : l.Settles nonNegative n outcome := by
  cases outcome with
  | completed receipt =>
      obtain ⟨⟨hsource, htarget, hamount⟩, hfirst, hsecond⟩ := h
      exact
        { noSource := fun hnone => by simp [hnone] at hsource
          noTarget := fun _ hnone => by simp [hnone] at htarget
          overflowed := fun _ _ => by simp [hamount]
          completed := fun hx hy _ => iff_of_true ⟨receipt, rfl⟩ (hfirst.drafts hsecond hx hy)
          rejected := fun hx hy _ p hp hnot _ =>
            absurd (hfirst.drafts hsecond hx hy p hp) hnot }
  | failed e =>
      obtain ⟨v, rfl, hv⟩ := h
      exact
        { noSource := by
            intro hnone
            cases hv with
            | source missing => rfl
            | target source missing => simp [hnone] at source
            | first feasible denied => exact absurd feasible.source (by simp [hnone])
            | second feasible granted denied => exact absurd feasible.source (by simp [hnone])
          noTarget := by
            intro hsource hnone
            cases hv with
            | source missing => simp [missing] at hsource
            | target source missing => rfl
            | first feasible denied => exact absurd feasible.target (by simp [hnone])
            | second feasible granted denied => exact absurd feasible.target (by simp [hnone])
          overflowed := by
            intro hsource htarget
            refine iff_of_false (by simp) ?_
            cases hv with
            | source missing => simp [missing] at hsource
            | target source missing => simp [missing] at htarget
            | first feasible denied => exact feasible.amount
            | second feasible granted denied => exact feasible.amount
          completed := by
            intro x y hx hy _
            obtain ⟨p, hp, hnot, -⟩ := hv.drafts hself hx hy
            exact iff_of_false (by simp) fun hall => hnot (hall p hp)
          rejected := by
            intro x y hx hy _ p hp hnot hlower
            obtain ⟨q, hq, hqnot, rfl, hothers⟩ := hv.drafts hself hx hy
            -- The reason is the lowest of the drafts that are not allowed, and so is the given one.
            have hsame : p = q := by
              by_contra hne
              rcases hothers p hp hne with hallowed | hlt
              · exact hnot hallowed
              · exact hqnot (hlower q hq hlt)
            rw [hsame] }
  | overflowed =>
      obtain ⟨hsource, htarget, hamount⟩ := h
      exact
        { noSource := fun hnone => by simp [hnone] at hsource
          noTarget := fun _ hnone => by simp [hnone] at htarget
          overflowed := fun _ _ => iff_of_true rfl hamount
          completed := fun _ _ hne => absurd hamount hne
          rejected := fun _ _ hne => absurd hamount hne }

/-- What the deeds of a transfer change. -/
theorem Transferred.of_deeds {r : Receipt} (hfits : r.Fits n)
    (h : l.Allows nonNegative (.committed (r.deeds n))) :
    l.Transferred n r (l.enactAll (r.deeds n)) := by
  obtain ⟨hadmits, hnew⟩ := h
  have hids : [r.debit.id, r.credit.id].Nodup := hnew.entries
  refine ⟨hfits, ⟨?_, rfl⟩, ⟨?_, ?_, ?_, rfl⟩, fun a => ?_⟩
  · exact hnew.transfer _ (by simp [Receipt.deeds, Deed.transfer?])
  · simpa using hids
  · exact hnew.entry _ (by simp [Receipt.deeds, Deed.entry?])
  · exact hnew.entry _ (by simp [Receipt.deeds, Deed.entry?])
  · rw [get?_enactAll hadmits, change_deeds]
    simp only [eq_comm (a := a)]
    rfl

end Ledger

namespace Bank

/-- **What an uncontended transfer leaves behind.** -/
structure Settles (b : Bank) (n : NewTransfer) (outcome : Outcome) (b' : Bank) : Prop where
  foretold : b.ledger.Settles b.nonNegative n outcome
  transferred : ∀ {r}, outcome = .completed r → b.ledger.Transferred n r b'.ledger
  /-- A transfer that fails uses up numbers, and nothing else. -/
  unchanged : (∀ r, outcome ≠ .completed r) →
    b' = { b with nextEntry := b'.nextEntry, nextTransfer := b'.nextTransfer }

variable {spent : Spent} {b : Bank} {awaits : Owner → Option Int} {number : Nat}
  {n : NewTransfer}

/-- A transfer that is started by an owner that has nothing in flight is unhindered if nobody has
locked the rows of its accounts. -/
theorem Unhindered.start {o : Owner} (hb : b.Sound awaits) (ha : awaits o = none)
    (hsource : b.Unlocked n.source) (htarget : b.Unlocked n.target) :
    b.Unhindered awaits o n { request := n } b where
  faults := rfl
  idle := hb.idle ha
  source h := .inr (hsource h)
  target h := .inr (htarget h)
  foreseen := trivial

/-- **A transfer settles at once** if nobody has locked the rows of its accounts. -/
theorem Sound.settles (hb : b.Sound awaits) (hfresh : b.Fresh spent)
    (hclosed : ¬ b.IsOpen (.call number)) (ha : awaits (.call number) = none)
    (hsource : b.Unlocked n.source) (htarget : b.Unlocked n.target)
    (hallowed : ∀ a x, b.ledger.accounts.get? a = some x →
      Amount.Allowed b.nonNegative x.balance) : ∃ outcome made b',
        (Request.transfer { request := n }).proceed number b =
          (some (.transfer outcome made), .transfer { request := n }, b') ∧
        b.Settles n outcome b' := by
  obtain ⟨outcome, made, b', heq, hforeseen, hends, -⟩ :=
    (Unhindered.start hb ha hsource htarget).run (.start hb hfresh hclosed ha n []) trivial
      fun _ _ _ => .trivial _ _
  refine ⟨outcome, made, b'.rollback (.call number), ?_, ?_, ?_, ?_⟩
  · unfold Request.proceed
    dsimp only
    rw [heq]
  · exact .of_foreseen hforeseen fun x _ hx => hallowed _ x hx
  · rintro r rfl
    obtain ⟨hfits, b₁, hw, hf₁, hs₁, ho₁, hdeeds, hcommit⟩ := hends.dropped
    have hperforms := hdeeds.performs hs₁ hf₁ ho₁
    -- Up to its commit the transfer has left the ledger as it found it.
    have hallows := Ledger.allowsAll_singleton.1 hperforms.allowed
    rw [hw.ledger, hw.nonNegative] at hallows
    rw [hcommit, hperforms.ledger, hw.ledger]
    exact .of_deeds hfits hallows
  · intro hne
    have hwithin : b.Within (.call number) (b'.rollback (.call number)) := by
      have hdropped := hends.dropped
      cases outcome with
      | completed r => exact absurd rfl (hne r)
      | failed e => exact hdropped
      | overflowed => exact hdropped
    -- Nothing is left of the unit of work, and there was nothing of its owner before.
    have hback := hends.sound.rollback (update_self _ _ _)
    rw [← hb.without_eq hclosed ha]
    exact hwithin.eq_without hback (not_isOpen_rollback hends.sound) (update_self _ _ _)

end Bank

/-! ## After any run -/

/-- Every committed balance is allowed. -/
theorem Hall.allowed_run (nonNegative : Bool) {ms : List Move} (hms : ∀ m ∈ ms, m.Ranged) :
    ∀ a x, ((opening nonNegative).afterAll ms).bank.ledger.accounts.get? a = some x →
      Amount.Allowed ((opening nonNegative).afterAll ms).bank.nonNegative x.balance := by
  intro a x hx
  have hn : ((opening nonNegative).afterAll ms).bank.nonNegative = nonNegative :=
    ((sound_opening nonNegative).brings_all ms).2.2
  rw [hn]
  refine ⟨ranged_run nonNegative hms a x hx, ?_⟩
  rintro rfl
  exact (solvent_ledger ms).1 a x hx

theorem Desk.allowed_run (nonNegative : Bool) {es : List Event} (hes : ∀ e ∈ es, e.Ranged) :
    ∀ a x, ((opening nonNegative).afterAll es).bank.ledger.accounts.get? a = some x →
      Amount.Allowed ((opening nonNegative).afterAll es).bank.nonNegative x.balance := by
  intro a x hx
  have hreachable : Reachable nonNegative ((opening nonNegative).afterAll es) :=
    Reachable.opening.afterAll es
  rw [hreachable.bank_nonNegative]
  refine ⟨ranged_run nonNegative hes a x hx, ?_⟩
  rintro rfl
  -- What is committed at a desk is committed after some moves.
  obtain ⟨ms, hbank, -⟩ := Hall.comes_desk true es
  rw [← hbank] at hx
  exact (Hall.solvent_ledger ms).1 a x hx

namespace Hall

/-- **What an uncontended transfer comes to:** call by call, with anything else in flight, and at
every desk. As long as nobody has locked the rows of its two accounts, and no balance was ever set
that does not fit in 64 bits, it ends at once, with the outcome that the ledger foretells, and
changes what it says and nothing else. -/
theorem uncontended_run (nonNegative : Bool) (n : NewTransfer) :
    (∀ ms number, ∀ h : Hall, h = (opening nonNegative).afterAll ms → (∀ m ∈ ms, m.Ranged) →
      ¬ h.bank.IsOpen (.call number) → h.awaits (.call number) = none →
      h.bank.Unlocked n.source → h.bank.Unlocked n.target → ∃ outcome made b',
        (Request.transfer { request := n }).proceed number h.bank =
          (some (.transfer outcome made), .transfer { request := n }, b') ∧
        h.bank.Settles n outcome b') ∧
    ∀ es, ∀ d : Desk, d = (Desk.opening nonNegative).afterAll es → (∀ e ∈ es, e.Ranged) →
      d.bank.Unlocked n.source → d.bank.Unlocked n.target → ∃ outcome made b',
        d.submit (.transfer n []) = (.reply (.transfer outcome made),
          { d with
            bank := b'
            metrics := d.metrics.recordOutcome outcome
            next := d.next + 1 }) ∧
        d.bank.Settles n outcome b' := by
  constructor
  · rintro ms number h rfl hms hclosed hidle hsource htarget
    have h₀ := sound_run nonNegative ms
    exact h₀.bank.settles h₀.fresh hclosed hidle hsource htarget (allowed_run nonNegative hms)
  · rintro es d rfl hes hsource htarget
    have hreachable : Desk.Reachable nonNegative ((Desk.opening nonNegative).afterAll es) :=
      Desk.Reachable.opening.afterAll es
    have hd := hreachable.sound
    obtain ⟨outcome, made, b', heq, hsettles⟩ := hd.bank.settles hd.fresh hd.closed_of_new
      hd.awaits_next hsource htarget (Desk.allowed_run nonNegative hes)
    exact ⟨outcome, made, b', hd.call_answered heq, hsettles⟩

/-- Account 3 is locked by an open unit of work, account 1 has the amount to give away, and
account 2 has not. -/
theorem uncontended_run_beside_lock :
    let moves : List Move := [.createAccount ⟨"a", 100, .usd⟩, .createAccount ⟨"b", 50, .usd⟩,
      .createAccount ⟨"c", 20, .usd⟩, .call (.unit "u") .begin, .call (.unit "u") (.addBalance 3 7)]
    let events : List Event := [.command (.createAccount ⟨"a", 100, .usd⟩),
      .command (.createAccount ⟨"b", 50, .usd⟩), .command (.createAccount ⟨"c", 20, .usd⟩),
      .command (.begin "u"), .command (.onUnit "u" (.addBalance 3 7))]
    let h := (opening true).afterAll moves
    let d := (Desk.opening true).afterAll events
    let n : NewTransfer := ⟨1, 2, 80⟩
    let m : NewTransfer := ⟨2, 1, 80⟩
    (((∀ x ∈ moves, x.Ranged) ∧ ¬ h.bank.IsOpen (.call 0) ∧ h.awaits (.call 0) = none ∧
        h.bank.Unlocked n.source ∧ h.bank.Unlocked n.target) ∧ ∃ outcome made b',
      (Request.transfer { request := n }).proceed 0 h.bank =
        (some (.transfer outcome made), .transfer { request := n }, b') ∧
      h.bank.Settles n outcome b') ∧
    ((∀ e ∈ events, e.Ranged) ∧ d.bank.Unlocked m.source ∧ d.bank.Unlocked m.target) ∧
      ∃ outcome made b', d.submit (.transfer m []) = (.reply (.transfer outcome made),
          { d with
            bank := b'
            metrics := d.metrics.recordOutcome outcome
            next := d.next + 1 }) ∧
        d.bank.Settles m outcome b' := by
  intro moves events h d n m
  have hmoves : ∀ x ∈ moves, x.Ranged := by decide +kernel
  have hclosed : ¬ h.bank.IsOpen (.call 0) := by decide +kernel
  have hidle : h.awaits (.call 0) = none := by decide +kernel
  have hsource : h.bank.Unlocked n.source := by decide +kernel
  have htarget : h.bank.Unlocked n.target := by decide +kernel
  have hevents : ∀ e ∈ events, e.Ranged := by decide +kernel
  have hsource' : d.bank.Unlocked m.source := by decide +kernel
  have htarget' : d.bank.Unlocked m.target := by decide +kernel
  exact ⟨⟨⟨hmoves, hclosed, hidle, hsource, htarget⟩, (uncontended_run true n).1 moves 0 h rfl
      hmoves hclosed hidle hsource htarget⟩,
    ⟨hevents, hsource', htarget'⟩,
      (uncontended_run true m).2 events d rfl hevents hsource' htarget'⟩

end Hall

end DoubleEntry
