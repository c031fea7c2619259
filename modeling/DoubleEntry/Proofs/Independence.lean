import DoubleEntry.Proofs.AppendOnly
import DoubleEntry.Proofs.Foretelling
set_option autoImplicit false

/-! # Transfers over different accounts

Two transfers that share no account do not get in each other's way: whichever is started first, each
of them comes to the same, and the bank that they leave is the same but for the numbers of the rows
that they have recorded (`Bank.Alike`). What can be foretold of a transfer depends on its own
accounts and on the next numbers, and the other transfer changes only the latter. The numbers that
the two transfers draw are two blocks, which change places with the order of the transfers
(`exchange`).
-/

namespace DoubleEntry

/-! ## What a transfer depends on -/

/-- Two ledgers agree on the accounts of a transfer. -/
def Ledger.Agrees (l l' : Ledger) (n : NewTransfer) : Prop :=
  ∀ a, a = n.source ∨ a = n.target → l'.accounts.get? a = l.accounts.get? a

namespace Ledger

variable {nonNegative : Bool} {l l' : Ledger} {n : NewTransfer} {v w : Violation} {a delta : Int}

namespace Agrees

theorem contains (h : l.Agrees l' n) (ha : a = n.source ∨ a = n.target) :
    l'.accounts.contains a = l.accounts.contains a := by
  unfold Table.contains
  rw [h a ha]

theorem feasible (h : l.Agrees l' n) (hl : l.Feasible n) : l'.Feasible n :=
  ⟨(h.contains (.inl rfl)).trans hl.source, (h.contains (.inr rfl)).trans hl.target, hl.amount⟩

theorem grants (h : l.Agrees l' n) (ha : a = n.source ∨ a = n.target)
    (hl : l.Grants nonNegative a delta) : l'.Grants nonNegative a delta := by
  obtain ⟨x, hx, hrest⟩ := hl
  exact ⟨x, (h a ha).trans hx, hrest⟩

theorem denies (h : l.Agrees l' n) (ha : a = n.source ∨ a = n.target)
    (hl : l.Denies nonNegative a delta v) : l'.Denies nonNegative a delta v := by
  obtain ⟨x, hx, hrest⟩ := hl
  exact ⟨x, (h a ha).trans hx, hrest⟩

theorem objects (h : l.Agrees l' n) (hl : l.Objects nonNegative n v) :
    l'.Objects nonNegative n v := by
  obtain ⟨hfirst, hsecond⟩ := n.adjustments_account
  cases hl with
  | source missing => exact .source ((h.contains (.inl rfl)).trans missing)
  | target source missing =>
      exact .target ((h.contains (.inl rfl)).trans source) ((h.contains (.inr rfl)).trans missing)
  | first feasible denied => exact .first (h.feasible feasible) (h.denies hfirst denied)
  | second feasible granted denied =>
      exact .second (h.feasible feasible) (h.grants hfirst granted) (h.denies hsecond denied)

/-- **What is foreseen depends on the accounts of the transfer alone.** -/
theorem foreseen (h : l.Agrees l' n) {outcome : Outcome} (hl : outcome.Foreseen nonNegative l n) :
    outcome.Foreseen nonNegative l' n := by
  obtain ⟨hfirst, hsecond⟩ := n.adjustments_account
  cases outcome with
  | completed receipt =>
      obtain ⟨hfeasible, hgranted, hgranted'⟩ := hl
      exact ⟨h.feasible hfeasible, h.grants hfirst hgranted, h.grants hsecond hgranted'⟩
  | failed e =>
      obtain ⟨v, rfl, hv⟩ := hl
      exact ⟨v, rfl, h.objects hv⟩
  | overflowed =>
      obtain ⟨hsource, htarget, hamount⟩ := hl
      exact ⟨(h.contains (.inl rfl)).trans hsource, (h.contains (.inr rfl)).trans htarget, hamount⟩

end Agrees

/-- An account that may have its new balance is not refused it. -/
theorem Grants.not_denies (h : l.Grants nonNegative a delta) :
    ¬ l.Denies nonNegative a delta v := by
  rintro ⟨y, hy, hnot, -⟩
  obtain ⟨x, hx, hallowed⟩ := h
  obtain rfl := Option.some.inj (hx.symm.trans hy)
  exact hnot hallowed

theorem Denies.unique (h : l.Denies nonNegative a delta v) (h' : l.Denies nonNegative a delta w) :
    v = w := by
  obtain ⟨x, hx, -, rfl⟩ := h
  obtain ⟨y, hy, -, rfl⟩ := h'
  obtain rfl := Option.some.inj (hx.symm.trans hy)
  rfl

theorem Objects.of_noSource (h : l.Objects nonNegative n v)
    (hnone : l.accounts.contains n.source = false) : v = .missingAccount .transfer n.source := by
  cases h with
  | source missing => rfl
  | target source missing => simp [hnone] at source
  | first feasible denied => exact absurd feasible.source (by simp [hnone])
  | second feasible granted denied => exact absurd feasible.source (by simp [hnone])

theorem Objects.of_noTarget (h : l.Objects nonNegative n v)
    (hsource : l.accounts.contains n.source = true)
    (hnone : l.accounts.contains n.target = false) : v = .missingAccount .transfer n.target := by
  cases h with
  | source missing => simp [missing] at hsource
  | target source missing => rfl
  | first feasible denied => exact absurd feasible.target (by simp [hnone])
  | second feasible granted denied => exact absurd feasible.target (by simp [hnone])

/-- A transfer whose accounts exist is rejected for a balance, the one that is adjusted first if it
may. -/
theorem Objects.denies (h : l.Objects nonNegative n v) (hfeasible : l.Feasible n) :
    l.Denies nonNegative n.adjustments.1.account n.adjustments.1.delta v ∨
      (l.Grants nonNegative n.adjustments.1.account n.adjustments.1.delta ∧
        l.Denies nonNegative n.adjustments.2.account n.lastChange v) := by
  cases h with
  | source missing => exact absurd hfeasible.source (by simp [missing])
  | target source missing => exact absurd hfeasible.target (by simp [missing])
  | first feasible denied => exact .inl denied
  | second feasible granted denied => exact .inr ⟨granted, denied⟩

/-- A ledger has one reason to reject a transfer. -/
theorem Objects.unique (h : l.Objects nonNegative n v) (h' : l.Objects nonNegative n w) :
    v = w := by
  cases h with
  | source missing => exact (h'.of_noSource missing).symm
  | target source missing => exact (h'.of_noTarget source missing).symm
  | first feasible denied =>
      rcases h'.denies feasible with hdenied | ⟨hgranted, -⟩
      · exact denied.unique hdenied
      · exact absurd denied hgranted.not_denies
  | second feasible granted denied =>
      rcases h'.denies feasible with hdenied | ⟨-, hdenied⟩
      · exact absurd hdenied granted.not_denies
      · exact denied.unique hdenied

/-- A transfer that a ledger rejects is not carried out, and its amount is not the one without an
opposite. -/
theorem Objects.not_completed (h : l.Objects nonNegative n v) (receipt : Receipt) :
    ¬ (Outcome.completed receipt).Foreseen nonNegative l n := by
  rintro ⟨hfeasible, hgranted, hgranted'⟩
  rcases h.denies hfeasible with hdenied | ⟨-, hdenied⟩
  · exact hgranted.not_denies hdenied
  · exact hgranted'.not_denies hdenied

theorem Objects.not_overflowed (h : l.Objects nonNegative n v) :
    ¬ Outcome.overflowed.Foreseen nonNegative l n := by
  rintro ⟨hsource, htarget, hamount⟩
  cases h with
  | source missing => simp [missing] at hsource
  | target source missing => simp [missing] at htarget
  | first feasible denied => exact feasible.amount hamount
  | second feasible granted denied => exact feasible.amount hamount

end Ledger

/-- **A ledger foresees one outcome,** receipts apart. -/
theorem Outcome.Foreseen.same {nonNegative : Bool} {l : Ledger} {n : NewTransfer}
    {o o' : Outcome} (h : o.Foreseen nonNegative l n) (h' : o'.Foreseen nonNegative l n) :
    (o' = o ∧ ∀ r, o ≠ .completed r) ∨ ∃ r r', o = .completed r ∧ o' = .completed r' := by
  cases o with
  | completed r =>
      cases o' with
      | completed r' => exact .inr ⟨r, r', rfl, rfl⟩
      | failed e =>
          obtain ⟨v, -, hv⟩ := h'
          exact absurd h (hv.not_completed r)
      | overflowed => exact absurd h'.2.2 h.1.amount
  | failed e =>
      obtain ⟨v, rfl, hv⟩ := h
      cases o' with
      | completed r' => exact absurd h' (hv.not_completed r')
      | failed e' =>
          obtain ⟨w, rfl, hw⟩ := h'
          exact .inl ⟨by rw [hv.unique hw], fun r => nofun⟩
      | overflowed => exact absurd h' hv.not_overflowed
  | overflowed =>
      cases o' with
      | completed r' => exact absurd h.2.2 h'.1.amount
      | failed e =>
          obtain ⟨v, -, hv⟩ := h'
          exact absurd h hv.not_overflowed
      | overflowed => exact .inl ⟨rfl, fun r => nofun⟩

/-- The accounts of a receipt follow from the accounts of the ledger. -/
theorem Ledger.Agrees.receipt {nonNegative : Bool} {l l' : Ledger} {n : NewTransfer}
    {r r' : Receipt} (h : l.Agrees l' n) (hr : l.AdmitsAll nonNegative (r.deeds n))
    (hr' : l'.AdmitsAll nonNegative (r'.deeds n)) :
    r'.source = r.source ∧ r'.target = r.target := by
  obtain ⟨-, -, -, ⟨x, hx, hfirst, -⟩, ⟨y, hy, hsecond, -⟩, -⟩ := hr
  obtain ⟨-, -, -, ⟨x', hx', hfirst', -⟩, ⟨y', hy', hsecond', -⟩, -⟩ := hr'
  obtain ⟨ha, ha'⟩ := n.adjustments_account
  -- The first adjustment finds the account of the ledger,
  have hxx : x' = x := Option.some.inj (hx'.symm.trans ((h _ ha).trans hx))
  have hone : r'.account n.adjustments.1.side = r.account n.adjustments.1.side := by
    rw [hfirst', hfirst, hxx]
  -- and the second one perhaps what the first has made of it.
  replace hy : (l.accounts.insert n.adjustments.1.account
    (r.account n.adjustments.1.side)).get? n.adjustments.2.account = some y := hy
  replace hy' : (l'.accounts.insert n.adjustments.1.account
    (r'.account n.adjustments.1.side)).get? n.adjustments.2.account = some y' := hy'
  rw [Table.get?_insert] at hy hy'
  rw [hone, h _ ha', hy] at hy'
  obtain rfl := Option.some.inj hy'
  have htwo : r'.account n.adjustments.2.side = r.account n.adjustments.2.side := by
    rw [hsecond', hsecond]
  unfold NewTransfer.adjustments at hone htwo
  by_cases hlt : n.source < n.target
  · rw [if_pos hlt] at hone htwo
    exact ⟨hone, htwo⟩
  · rw [if_neg hlt] at hone htwo
    exact ⟨htwo, hone⟩

/-! ## Numbers that change places -/

/-- Two blocks of numbers, the first of which begins with `k`, change places. -/
def exchange (k : Int) (p q : Nat) : Equiv.Perm Int where
  toFun i := if k ≤ i ∧ i < k + p then i + q
    else if k + p ≤ i ∧ i < k + p + q then i - p else i
  invFun i := if k ≤ i ∧ i < k + q then i + p
    else if k + q ≤ i ∧ i < k + q + p then i - q else i
  left_inv i := by
    dsimp only
    split_ifs <;> omega
  right_inv i := by
    dsimp only
    split_ifs <;> omega

theorem exchange_first {k i : Int} {p : Nat} (q : Nat) (h : k ≤ i) (h' : i < k + p) :
    exchange k p q i = i + q := if_pos ⟨h, h'⟩

theorem exchange_second {k i : Int} {p q : Nat} (h : k + p ≤ i) (h' : i < k + p + q) :
    exchange k p q i = i - p := by
  show (if k ≤ i ∧ i < k + p then i + (q : Int)
    else if k + p ≤ i ∧ i < k + p + q then i - p else i) = i - p
  rw [if_neg (by omega), if_pos ⟨h, h'⟩]

theorem exchange_of_not_drawn {k i : Int} {p q : Nat} (h : i < k ∨ k + p + q ≤ i) :
    exchange k p q i = i := by
  show (if k ≤ i ∧ i < k + p then i + (q : Int)
    else if k + p ≤ i ∧ i < k + p + q then i - p else i) = i
  rw [if_neg (by omega), if_neg (by omega)]

/-- A transfer under another number. -/
def Transfer.renumber (ρ : Int → Int) (t : Transfer) : Transfer := { t with id := ρ t.id }

/-- An entry under another number. -/
def Entry.renumber (ρ : Int → Int) (e : Entry) : Entry := { e with id := ρ e.id }

/-- A receipt whose rows have other numbers. The accounts that it shows stay the same. -/
def Receipt.renumber (ρ σ : Int → Int) (r : Receipt) : Receipt :=
  { r with
    transfer := r.transfer.renumber ρ
    debit := r.debit.renumber σ
    credit := r.credit.renumber σ }

/-- An outcome whose rows have other numbers. Failures stay the same. -/
def Outcome.renumber (ρ σ : Int → Int) : Outcome → Outcome
  | .completed r => .completed (r.renumber ρ σ)
  | .failed e => .failed e
  | .overflowed => .overflowed

namespace Table

variable {α : Type} {ρ : Equiv.Perm Int} {f : α → α} {id : α → Int} {t : Table α} {next : Int}
  {l l' : List α}

/-- A table with the same rows under other numbers. -/
def Renumbered (ρ : Equiv.Perm Int) (f : α → α) (t t' : Table α) : Prop :=
  ∀ k, t'.get? (ρ k) = (t.get? k).map f

/-- Rows whose numbers stay the same. -/
theorem Renumbered.of_fixed (hrow : ∀ {k x}, t.get? k = some x → ρ k = k ∧ f x = x) :
    t.Renumbered ρ f t := by
  intro k
  cases hk : t.get? k with
  | some x =>
      obtain ⟨hfixed, hx⟩ := hrow hk
      rw [hfixed, hk, Option.map_some, hx]
  | none =>
      cases hρ : t.get? (ρ k) with
      | none => rfl
      | some y =>
          -- A row under the new number would have kept its number, which would then be the old one.
          have hsame : ρ k = k := ρ.injective (hrow hρ).1
          rw [hsame, hk] at hρ
          cases hρ

/-- Rows that have numbers that stay the same. -/
theorem Renumbered.of_numbered {spent : Int → Prop} {staged : Owner → List α}
    (h : Numbered spent id t next staged) (hρ : ∀ k < next, ρ k = k)
    (hf : ∀ x, ρ (id x) = id x → f x = x) : t.Renumbered ρ f t := by
  refine .of_fixed fun {k x} hk => ?_
  obtain ⟨hid, hlt⟩ := h.row hk
  exact ⟨hρ k hlt, hf x (by rw [hid, hρ k hlt])⟩

/-- **Rows that are put in** under other numbers, and in another order. -/
theorem Renumbered.foldl_insert (h : t.Renumbered ρ f t) (hid : ∀ x, id (f x) = ρ (id x))
    (hl : (l.map id).Nodup) (hperm : l'.Perm (l.map f)) :
    (l.foldl (fun t x => t.insert (id x) x) t).Renumbered ρ f
      (l'.foldl (fun t x => t.insert (id x) x) t) := by
  have hids : ((l.map f).map id) = (l.map id).map ρ := by
    rw [List.map_map, List.map_map]
    exact List.map_congr_left fun x _ => hid x
  have hl' : (l'.map id).Nodup := by
    rw [(hperm.map id).nodup_iff, hids]
    exact hl.map ρ.injective
  intro k
  by_cases hk : k ∈ l.map id
  · obtain ⟨x, hx, rfl⟩ := List.mem_map.1 hk
    have hx' : f x ∈ l' := hperm.mem_iff.2 (List.mem_map.2 ⟨x, hx, rfl⟩)
    rw [get?_foldl_insert_of_mem hl hx, ← hid, get?_foldl_insert_of_mem hl' hx']
    rfl
  · have hk' : ρ k ∉ l'.map id := by
      rw [(hperm.map id).mem_iff, hids]
      intro hmem
      obtain ⟨i, hi, he⟩ := List.mem_map.1 hmem
      exact hk (ρ.injective he ▸ hi)
    rw [get?_foldl_insert_of_not_mem hk, get?_foldl_insert_of_not_mem hk']
    exact h k

end Table

/-! ## One order and the other -/

/-- Two transfers that have no account in common. -/
def NewTransfer.Disjoint (n m : NewTransfer) : Prop :=
  n.source ≠ m.source ∧ n.source ≠ m.target ∧ n.target ≠ m.source ∧ n.target ≠ m.target

instance (n m : NewTransfer) : Decidable (n.Disjoint m) := inferInstanceAs (Decidable (_ ∧ _))

namespace Bank

variable {b c b₁ b₂ c₁ c₂ b' c' : Bank} {n m : NewTransfer} {o o' o₁ o₂ o₁' o₂' : Outcome}
  {spent : Spent}

/-- A bank with the same rows, but for the numbers of committed transfers and entries. -/
structure Renumbered (ρ σ : Equiv.Perm Int) (b b' : Bank) : Prop where
  transfers : b.transfers.Renumbered ρ (Transfer.renumber ρ) b'.transfers
  entries : b.entries.Renumbered σ (Entry.renumber σ) b'.entries
  rest : b' = { b with transfers := b'.transfers, entries := b'.entries }

namespace Foretold

/-- What a transfer records: one transfer and two entries, or nothing. -/
theorem records (h : b.Foretold n o b') :
    ((o.deeds n).filterMap Deed.transfer? = [] ∧ (o.deeds n).filterMap Deed.entry? = []) ∨
    ((o.deeds n).filterMap Deed.transfer? = [b.newTransfer n] ∧
      (o.deeds n).filterMap Deed.entry? = [b.newDebit n, b.newCredit n] ∧
      b.ledger.transfersDrawn n = 1 ∧ b.ledger.entriesDrawn n = 2) := by
  cases o with
  | completed r =>
      obtain ⟨ht, hdebit, hcredit⟩ := h.rows rfl
      have hdeeds : (Outcome.completed r).deeds n = r.deeds n := rfl
      refine .inr ⟨?_, ?_, drawn_of_feasible h.foreseen.1⟩
      · rw [hdeeds, ← ht]
        rfl
      · rw [hdeeds, ← hdebit, ← hcredit]
        rfl
  | failed e => exact .inl ⟨rfl, rfl⟩
  | overflowed => exact .inl ⟨rfl, rfl⟩

/-- **A transfer comes to the same elsewhere** if its accounts are the same there, but for the
numbers of its rows. -/
theorem renumber (h : b.Foretold n o b') (h' : c.Foretold n o' c')
    (hl : b.ledger.Agrees c.ledger n) (hn : c.nonNegative = b.nonNegative)
    (hclock : c.clock = b.clock) {ρ σ : Int → Int}
    (hρ : b.ledger.transfersDrawn n = 1 → ρ b.nextTransfer = c.nextTransfer)
    (hσ : b.ledger.entriesDrawn n = 2 →
      σ b.nextEntry = c.nextEntry ∧ σ (b.nextEntry + 1) = c.nextEntry + 1) :
    o' = o.renumber ρ σ := by
  have hforeseen := h'.foreseen
  have hforeseen' := hl.foreseen h.foreseen
  rw [hn] at hforeseen
  rcases hforeseen'.same hforeseen with ⟨rfl, hfails⟩ | ⟨r, r', rfl, rfl⟩
  · cases o' with
    | completed r => exact absurd rfl (hfails r)
    | failed e => rfl
    | overflowed => rfl
  · obtain ⟨ht, hdebit, hcredit⟩ := h.rows rfl
    obtain ⟨ht', hdebit', hcredit'⟩ := h'.rows rfl
    obtain ⟨htransfers, hentries⟩ := drawn_of_feasible h.foreseen.1
    have hadmitted := h'.admitted
    rw [hn] at hadmitted
    obtain ⟨hsource, htarget⟩ := hl.receipt h.admitted hadmitted
    obtain ⟨transfer, source, target, debit, credit⟩ := r
    obtain ⟨transfer', source', target', debit', credit'⟩ := r'
    dsimp only at ht hdebit hcredit ht' hdebit' hcredit' hsource htarget
    subst ht hdebit hcredit ht' hdebit' hcredit' hsource htarget
    unfold Outcome.renumber Receipt.renumber Transfer.renumber Entry.renumber newTransfer newDebit
      newCredit
    dsimp only
    rw [hρ htransfers, (hσ hentries).1, (hσ hentries).2, hclock]

theorem numbers (h : b.Foretold n o b') :
    b.Drew (b.ledger.transfersDrawn n) (b.ledger.entriesDrawn n) b' := by
  rw [h.bank]
  exact ⟨rfl, rfl⟩

theorem clock (h : b.Foretold n o b') : b'.clock = b.clock := by
  rw [h.bank]
  rfl

theorem nonNegative (h : b.Foretold n o b') : b'.nonNegative = b.nonNegative := by
  rw [h.bank]
  rfl

theorem get?_accounts (h : b.Foretold n o b') (a : Int) : b'.accounts.get? a =
    (b.accounts.get? a).map fun r => r.plus ((o.deeds n).map (Deed.change a)).sum := by
  rw [h.bank]
  show (b.accounts.collect _).get? a = _
  rw [Table.get?_collect]
  cases b.accounts.get? a <;> rfl

/-- A transfer leaves the rows of other accounts alone. -/
theorem get?_of_ne (h : b.Foretold n o b') {a : Int} (hs : n.source ≠ a) (ht : n.target ≠ a) :
    b'.accounts.get? a = b.accounts.get? a := by
  have hzero : ((o.deeds n).map (Deed.change a)).sum = 0 := by
    cases o with
    | completed r =>
        rw [show (Outcome.completed r).deeds n = r.deeds n from rfl, Ledger.change_deeds,
          if_neg ht, if_neg hs]
        rfl
    | failed e => rfl
    | overflowed => rfl
  rw [h.get?_accounts, hzero]
  cases b.accounts.get? a with
  | none => rfl
  | some r => exact congrArg some r.plus_zero

/-- A transfer does not change what another one finds that has no account in common with it. -/
theorem agrees (h : b.Foretold n o b') (hd : n.Disjoint m) : b.ledger.Agrees b'.ledger m := by
  rintro a (rfl | rfl)
  · rw [get?_ledger, get?_ledger, h.get?_of_ne hd.1 hd.2.2.1]
  · rw [get?_ledger, get?_ledger, h.get?_of_ne hd.2.1 hd.2.2.2]

/-- A transfer locks nothing that it does not give back. -/
theorem unlocked (h : b.Foretold n o b') {a : Int} (hs : n.source ≠ a) (ht : n.target ≠ a)
    (hfree : b.Unlocked a) : b'.Unlocked a := by
  intro ha
  rw [Table.contains, h.get?_of_ne hs ht] at ha
  rw [h.bank]
  exact hfree ha

theorem transfers (h : b.Foretold n o b') : b'.transfers =
    ((o.deeds n).filterMap Deed.transfer?).foldl (fun t x => t.insert x.id x) b.transfers := by
  rw [h.bank]
  rfl

theorem entries (h : b.Foretold n o b') : b'.entries =
    ((o.deeds n).filterMap Deed.entry?).foldl (fun t x => t.insert x.id x) b.entries := by
  rw [h.bank]
  rfl

/-- Two transfers, one after the other, record their rows under different numbers. -/
theorem nodup (h : b.Foretold n o b') (h' : b'.Foretold m o' c) :
    (((o.deeds n).filterMap Deed.transfer? ++ (o'.deeds m).filterMap Deed.transfer?).map
      Transfer.id).Nodup ∧
    (((o.deeds n).filterMap Deed.entry? ++ (o'.deeds m).filterMap Deed.entry?).map
      Entry.id).Nodup := by
  obtain ⟨hnt, hne⟩ := h.numbers
  rcases h.records with ⟨ht, he⟩ | ⟨ht, he, hone, htwo⟩ <;>
    rcases h'.records with ⟨ht', he'⟩ | ⟨ht', he', -, -⟩ <;> rw [ht, ht', he, he']
  · simp
  · simp [newDebit, newCredit]
  · simp [newDebit, newCredit]
  · -- The second transfer finds the numbers used that the first has drawn.
    rw [hone] at hnt
    rw [htwo] at hne
    simp [newTransfer, newDebit, newCredit, hnt, hne]
    omega

/-- Only balances, committed transfers and entries, and the next numbers are not as before. -/
theorem rest (h : b.Foretold n o b') : b' =
    { b with
      accounts := b'.accounts
      transfers := b'.transfers
      entries := b'.entries
      nextTransfer := b'.nextTransfer
      nextEntry := b'.nextEntry } := by
  rw [h.bank]
  rfl

theorem rest_trans (h : b.Foretold n o b') (h' : b'.Foretold m o' c) : c =
    { b with
      accounts := c.accounts
      transfers := c.transfers
      entries := c.entries
      nextTransfer := c.nextTransfer
      nextEntry := c.nextEntry } := by
  refine h'.rest.trans ?_
  rw [h.rest]

theorem isOpen (h : b.Foretold n o b') (p : Owner) : b'.IsOpen p ↔ b.IsOpen p := by
  rw [h.bank]
  rfl

end Foretold

end Bank

theorem Ledger.Agrees.drawn {l l' : Ledger} {n : NewTransfer} (h : l.Agrees l' n) :
    l'.transfersDrawn n = l.transfersDrawn n ∧ l'.entriesDrawn n = l.entriesDrawn n := by
  unfold Ledger.transfersDrawn Ledger.entriesDrawn
  rw [h.contains (.inl rfl), h.contains (.inr rfl)]
  exact ⟨rfl, rfl⟩

theorem Ledger.Agrees.symm {l l' : Ledger} {n : NewTransfer} (h : l.Agrees l' n) :
    l'.Agrees l n := fun a ha => (h a ha).symm

theorem NewTransfer.Disjoint.symm {n m : NewTransfer} (h : n.Disjoint m) : m.Disjoint n :=
  ⟨h.1.symm, h.2.2.1.symm, h.2.1.symm, h.2.2.2.symm⟩

namespace Outcome

variable {n : NewTransfer} {ρ σ : Int → Int}

theorem transfers_renumber (o : Outcome) : ((o.renumber ρ σ).deeds n).filterMap Deed.transfer? =
    ((o.deeds n).filterMap Deed.transfer?).map (Transfer.renumber ρ) := by
  cases o <;> rfl

theorem entries_renumber (o : Outcome) : ((o.renumber ρ σ).deeds n).filterMap Deed.entry? =
    ((o.deeds n).filterMap Deed.entry?).map (Entry.renumber σ) := by
  cases o <;> rfl

/-- What a transfer adds to a balance does not depend on numbers. -/
theorem change_renumber (o : Outcome) (a : Int) :
    (((o.renumber ρ σ).deeds n).map (Deed.change a)).sum =
      ((o.deeds n).map (Deed.change a)).sum := by
  cases o with
  | completed r => exact (Ledger.change_deeds n _ a).trans (Ledger.change_deeds n r a).symm
  | failed e => rfl
  | overflowed => rfl

end Outcome

namespace Bank

variable {b b₁ b₂ c₁ c₂ : Bank} {n m : NewTransfer} {o₁ o₂ o₁' o₂' : Outcome} {spent : Spent}

/-- Two outcomes and a bank that two transfers have led to, and two outcomes and a bank that are the
same but for the numbers that the transfers have drawn. -/
def Alike (b₀ : Bank) (first second : Outcome) (b : Bank) (first' second' : Outcome) (b' : Bank) :
    Prop :=
  ∃ ρ σ : Equiv.Perm Int,
    (∀ k, k < b₀.nextTransfer ∨ b.nextTransfer ≤ k → ρ k = k) ∧
    (∀ k, k < b₀.nextEntry ∨ b.nextEntry ≤ k → σ k = k) ∧
    first' = first.renumber ρ σ ∧ second' = second.renumber ρ σ ∧ b.Renumbered ρ σ b'

/-- What two transfers add to the balances does not depend on their order. -/
theorem Foretold.accounts_eq {ρ σ : Int → Int} (h₁ : b.Foretold n o₁ b₁) (h₂ : b₁.Foretold m o₂ b₂)
    (h₂' : b.Foretold m o₂' c₁) (h₁' : c₁.Foretold n o₁' c₂) (hfirst : o₁' = o₁.renumber ρ σ)
    (hsecond : o₂' = o₂.renumber ρ σ) : c₂.accounts = b₂.accounts := by
  apply Table.ext
  intro a
  rw [h₁'.get?_accounts, h₂'.get?_accounts, h₂.get?_accounts, h₁.get?_accounts, hfirst, hsecond,
    Outcome.change_renumber, Outcome.change_renumber, Option.map_map, Option.map_map]
  congr 1
  funext r
  simp only [Function.comp_apply, Row.plus_plus, add_comm]

/-- **Two orders of two transfers** that have no account in common come to the same. -/
theorem Foretold.alike (hfresh : b.Fresh spent) (hd : n.Disjoint m) (h₁ : b.Foretold n o₁ b₁)
    (h₂ : b₁.Foretold m o₂ b₂) (h₂' : b.Foretold m o₂' c₁) (h₁' : c₁.Foretold n o₁' c₂) :
    b.Alike o₁ o₂ b₂ o₁' o₂' c₂ := by
  have hm := h₁.agrees hd
  have hn := h₂'.agrees hd.symm
  -- Each transfer draws as many numbers as it would if it were first.
  obtain ⟨hp₂, hq₂⟩ := hm.drawn
  obtain ⟨hp₁, hq₁⟩ := hn.drawn
  obtain ⟨hnt₁, hne₁⟩ := h₁.numbers
  obtain ⟨hnt₂, hne₂⟩ := h₂.numbers
  obtain ⟨hnt₁', hne₁'⟩ := h₂'.numbers
  obtain ⟨hnt₂', hne₂'⟩ := h₁'.numbers
  rw [hp₂] at hnt₂
  rw [hq₂] at hne₂
  rw [hp₁] at hnt₂'
  rw [hq₁] at hne₂'
  let ρ := exchange b.nextTransfer (b.ledger.transfersDrawn n) (b.ledger.transfersDrawn m)
  let σ := exchange b.nextEntry (b.ledger.entriesDrawn n) (b.ledger.entriesDrawn m)
  have hfirst : o₁' = o₁.renumber ρ σ := by
    refine h₁.renumber h₁' hn h₂'.nonNegative h₂'.clock (fun hone => ?_)
      fun htwo => ⟨?_, ?_⟩
    · rw [hnt₁']
      exact exchange_first _ le_rfl (by omega)
    · rw [hne₁']
      exact exchange_first _ le_rfl (by omega)
    · rw [hne₁', add_right_comm]
      exact exchange_first _ (by omega) (by omega)
  have hsecond : o₂' = o₂.renumber ρ σ := by
    refine h₂.renumber h₂' hm.symm h₁.nonNegative.symm h₁.clock.symm (fun hone => ?_)
      fun htwo => ⟨?_, ?_⟩
    · rw [hp₂] at hone
      rw [hnt₁]
      exact (exchange_second (by omega) (by omega)).trans (by omega)
    · rw [hq₂] at htwo
      rw [hne₁]
      exact (exchange_second (by omega) (by omega)).trans (by omega)
    · rw [hq₂] at htwo
      rw [hne₁]
      exact (exchange_second (by omega) (by omega)).trans (by omega)
  refine ⟨ρ, σ, ?_, ?_, hfirst, hsecond, ?_, ?_, ?_⟩
  · intro k hk
    exact exchange_of_not_drawn (by omega)
  · intro k hk
    exact exchange_of_not_drawn (by omega)
  · have hrow : b.transfers.Renumbered ρ (Transfer.renumber ρ) b.transfers :=
      .of_numbered hfresh.transfers (fun k hk => exchange_of_not_drawn (.inl hk))
        fun t ht => by rw [Transfer.renumber, ht]
    rw [h₂.transfers, h₁.transfers, h₁'.transfers, h₂'.transfers, ← List.foldl_append,
      ← List.foldl_append, hfirst, hsecond, Outcome.transfers_renumber, Outcome.transfers_renumber]
    refine hrow.foldl_insert (fun _ => rfl) (h₁.nodup h₂).1 ?_
    rw [List.map_append]
    exact List.perm_append_comm
  · have hrow : b.entries.Renumbered σ (Entry.renumber σ) b.entries :=
      .of_numbered hfresh.entries (fun k hk => exchange_of_not_drawn (.inl hk))
        fun e he => by rw [Entry.renumber, he]
    rw [h₂.entries, h₁.entries, h₁'.entries, h₂'.entries, ← List.foldl_append,
      ← List.foldl_append, hfirst, hsecond, Outcome.entries_renumber, Outcome.entries_renumber]
    refine hrow.foldl_insert (fun _ => rfl) (h₁.nodup h₂).2 ?_
    rw [List.map_append]
    exact List.perm_append_comm
  · have haccounts : c₂.accounts = b₂.accounts := h₁.accounts_eq h₂ h₂' h₁' hfirst hsecond
    have hnt : c₂.nextTransfer = b₂.nextTransfer := by omega
    have hne : c₂.nextEntry = b₂.nextEntry := by omega
    have hb₂ := h₁.rest_trans h₂
    calc c₂ = { b with
            accounts := c₂.accounts
            transfers := c₂.transfers
            entries := c₂.entries
            nextTransfer := c₂.nextTransfer
            nextEntry := c₂.nextEntry } := h₂'.rest_trans h₁'
      _ = { b with
            accounts := b₂.accounts
            transfers := c₂.transfers
            entries := c₂.entries
            nextTransfer := b₂.nextTransfer
            nextEntry := b₂.nextEntry } := by rw [haccounts, hnt, hne]
      _ = { b₂ with transfers := c₂.transfers, entries := c₂.entries } := by rw [hb₂]

end Bank

/-! ## After any run -/

/-- A transfer that is started under a number ends at once. -/
def Bank.Executes (b : Bank) (number : Nat) (n : NewTransfer) (outcome : Outcome) (b' : Bank) :
    Prop :=
  ∃ made, (Request.transfer { request := n }).proceed number b =
    (some (.transfer outcome made), .transfer { request := n }, b')

/-- A transfer that is started at a desk ends at once. -/
def Desk.Executes (d : Desk) (n : NewTransfer) (outcome : Outcome) (d' : Desk) : Prop :=
  ∃ made, d.submit (.transfer n []) = (.reply (.transfer outcome made), d')

/-- An uncontended transfer at a desk leaves the pending calls alone. -/
theorem Desk.Reachable.executes {nonNegative : Bool} {d : Desk} {n : NewTransfer}
    (hr : d.Reachable nonNegative) (hsource : d.bank.Unlocked n.source)
    (htarget : d.bank.Unlocked n.target) : ∃ outcome d', d.Executes n outcome d' ∧
      d.bank.Foretold n outcome d'.bank ∧ d'.Reachable nonNegative ∧
      d'.pending = d.pending ∧ d'.next = d.next + 1 := by
  have hd := hr.sound
  obtain ⟨outcome, made, b', heq, hforetold, -, -⟩ :=
    hd.bank.foretold hd.fresh hd.closed_of_new hd.awaits_next hsource htarget
  have hcall := hd.call_answered heq
  have hnext := hr.after (.command (.transfer n []))
  refine ⟨outcome, _, ⟨made, hcall⟩, hforetold, ?_, rfl, rfl⟩
  replace hnext : Reachable nonNegative (d.call (.transfer { request := n })).2 := hnext
  rwa [hcall] at hnext

namespace Hall

/-- **Transfers over different accounts are independent,** call by call, with anything else in
flight, and at every desk. If nobody has locked the rows of their accounts, two transfers that have
no account in common end at once in either order, with the same outcomes and the same accounts in
their receipts. The two orders leave the same bank, but for a renaming of the numbers that the
transfers have drawn. Each of them may be carried out, fail or be given up for its amount. -/
theorem independence_run (nonNegative : Bool) (n m : NewTransfer) (disjoint : n.Disjoint m) :
    (∀ ms i j i' j', ∀ h : Hall, h = (opening nonNegative).afterAll ms →
      (∀ k ∈ [i, j, i', j'], ¬ h.bank.IsOpen (.call k) ∧ h.awaits (.call k) = none) →
      (∀ a ∈ [n.source, n.target, m.source, m.target], h.bank.Unlocked a) →
      ∃ o₁ o₂ o₁' o₂' b₁ b₂ c₁ c₂,
        (h.bank.Executes i n o₁ b₁ ∧ b₁.Executes j m o₂ b₂) ∧
        (h.bank.Executes i' m o₂' c₁ ∧ c₁.Executes j' n o₁' c₂) ∧
        h.bank.Alike o₁ o₂ b₂ o₁' o₂' c₂) ∧
    ∀ es, ∀ d : Desk, d = (Desk.opening nonNegative).afterAll es →
      (∀ a ∈ [n.source, n.target, m.source, m.target], d.bank.Unlocked a) →
      ∃ o₁ o₂ o₁' o₂' d₁ d₂ e₁ e₂,
        (d.Executes n o₁ d₁ ∧ d₁.Executes m o₂ d₂) ∧
        (d.Executes m o₂' e₁ ∧ e₁.Executes n o₁' e₂) ∧
        d.bank.Alike o₁ o₂ d₂.bank o₁' o₂' e₂.bank ∧
        e₂.pending = d₂.pending ∧ e₂.next = d₂.next := by
  have disjoint' := disjoint.symm
  constructor
  · rintro ms i j i' j' h rfl hfree hunlocked
    have h₀ := sound_run nonNegative ms
    have hns := hunlocked n.source (by simp)
    have hnt := hunlocked n.target (by simp)
    have hms := hunlocked m.source (by simp)
    have hmt := hunlocked m.target (by simp)
    obtain ⟨hi, hi₀⟩ := hfree i (by simp)
    obtain ⟨hj, hj₀⟩ := hfree j (by simp)
    obtain ⟨hi', hi₀'⟩ := hfree i' (by simp)
    obtain ⟨hj', hj₀'⟩ := hfree j' (by simp)
    obtain ⟨o₁, made₁, b₁, heq₁, h₁, hs₁, hf₁⟩ := h₀.bank.foretold h₀.fresh hi hi₀ hns hnt
    obtain ⟨o₂, made₂, b₂, heq₂, h₂, -, -⟩ := hs₁.foretold hf₁ (mt (h₁.isOpen _).1 hj) hj₀
      (h₁.unlocked disjoint.1 disjoint.2.2.1 hms) (h₁.unlocked disjoint.2.1 disjoint.2.2.2 hmt)
    obtain ⟨o₂', made₂', c₁, heq₂', h₂', hs₁', hf₁'⟩ :=
      h₀.bank.foretold h₀.fresh hi' hi₀' hms hmt
    obtain ⟨o₁', made₁', c₂, heq₁', h₁', -, -⟩ := hs₁'.foretold hf₁' (mt (h₂'.isOpen _).1 hj') hj₀'
      (h₂'.unlocked disjoint'.1 disjoint'.2.2.1 hns)
      (h₂'.unlocked disjoint'.2.1 disjoint'.2.2.2 hnt)
    exact ⟨o₁, o₂, o₁', o₂', b₁, b₂, c₁, c₂, ⟨⟨made₁, heq₁⟩, ⟨made₂, heq₂⟩⟩,
      ⟨⟨made₂', heq₂'⟩, ⟨made₁', heq₁'⟩⟩, h₁.alike h₀.fresh disjoint h₂ h₂' h₁'⟩
  · rintro es d rfl hunlocked
    have hd : Desk.Reachable nonNegative ((Desk.opening nonNegative).afterAll es) :=
      Desk.Reachable.opening.afterAll es
    have hns := hunlocked n.source (by simp)
    have hnt := hunlocked n.target (by simp)
    have hms := hunlocked m.source (by simp)
    have hmt := hunlocked m.target (by simp)
    obtain ⟨o₁, d₁, hx₁, h₁, hr₁, hp₁, hn₁⟩ := hd.executes hns hnt
    obtain ⟨o₂, d₂, hx₂, h₂, -, hp₂, hn₂⟩ := hr₁.executes
      (h₁.unlocked disjoint.1 disjoint.2.2.1 hms) (h₁.unlocked disjoint.2.1 disjoint.2.2.2 hmt)
    obtain ⟨o₂', e₁, hx₂', h₂', hr₁', hp₁', hn₁'⟩ := hd.executes hms hmt
    obtain ⟨o₁', e₂, hx₁', h₁', -, hp₂', hn₂'⟩ := hr₁'.executes
      (h₂'.unlocked disjoint'.1 disjoint'.2.2.1 hns)
      (h₂'.unlocked disjoint'.2.1 disjoint'.2.2.2 hnt)
    refine ⟨o₁, o₂, o₁', o₂', d₁, d₂, e₁, e₂, ⟨hx₁, hx₂⟩, ⟨hx₂', hx₁'⟩,
      h₁.alike hd.sound.fresh disjoint h₂ h₂' h₁', ?_, ?_⟩
    · rw [hp₂', hp₁', hp₂, hp₁]
    · rw [hn₂', hn₁', hn₂, hn₁]

/-- Account 5 is locked by an open unit of work. The transfer from account 1 to account 2 fails,
because the source has too little, and draws numbers all the same; the one from account 3 to
account 4 is carried out. -/
theorem independence_run_beside_lock :
    let n : NewTransfer := ⟨1, 2, 80⟩
    let m : NewTransfer := ⟨3, 4, 5⟩
    let moves : List Move := [.createAccount ⟨"a", 10, .usd⟩, .createAccount ⟨"b", 50, .usd⟩,
      .createAccount ⟨"c", 20, .usd⟩, .createAccount ⟨"d", 0, .usd⟩, .createAccount ⟨"e", 1, .usd⟩,
      .call (.unit "u") .begin, .call (.unit "u") (.addBalance 5 7)]
    let events : List Event := [.command (.createAccount ⟨"a", 10, .usd⟩),
      .command (.createAccount ⟨"b", 50, .usd⟩), .command (.createAccount ⟨"c", 20, .usd⟩),
      .command (.createAccount ⟨"d", 0, .usd⟩), .command (.createAccount ⟨"e", 1, .usd⟩),
      .command (.begin "u"), .command (.onUnit "u" (.addBalance 5 7))]
    let h := (opening true).afterAll moves
    let d := (Desk.opening true).afterAll events
    (n.Disjoint m ∧ (∀ k ∈ [0, 1, 2, 3], ¬ h.bank.IsOpen (.call k) ∧ h.awaits (.call k) = none) ∧
        (∀ a ∈ [n.source, n.target, m.source, m.target], h.bank.Unlocked a) ∧
        ∀ a ∈ [n.source, n.target, m.source, m.target], d.bank.Unlocked a) ∧
      (∃ o₁ o₂ o₁' o₂' b₁ b₂ c₁ c₂,
        (h.bank.Executes 0 n o₁ b₁ ∧ b₁.Executes 1 m o₂ b₂) ∧
        (h.bank.Executes 2 m o₂' c₁ ∧ c₁.Executes 3 n o₁' c₂) ∧
        h.bank.Alike o₁ o₂ b₂ o₁' o₂' c₂) ∧
      ∃ o₁ o₂ o₁' o₂' d₁ d₂ e₁ e₂,
        (d.Executes n o₁ d₁ ∧ d₁.Executes m o₂ d₂) ∧
        (d.Executes m o₂' e₁ ∧ e₁.Executes n o₁' e₂) ∧
        d.bank.Alike o₁ o₂ d₂.bank o₁' o₂' e₂.bank ∧
        e₂.pending = d₂.pending ∧ e₂.next = d₂.next := by
  intro n m moves events h d
  have hdisjoint : n.Disjoint m := by decide
  have hfree : ∀ k ∈ [0, 1, 2, 3], ¬ h.bank.IsOpen (.call k) ∧ h.awaits (.call k) = none := by
    decide +kernel
  have hunlocked : ∀ a ∈ [n.source, n.target, m.source, m.target], h.bank.Unlocked a := by
    decide +kernel
  have hunlocked' : ∀ a ∈ [n.source, n.target, m.source, m.target], d.bank.Unlocked a := by
    decide +kernel
  exact ⟨⟨hdisjoint, hfree, hunlocked, hunlocked'⟩,
    (independence_run true n m hdisjoint).1 moves 0 1 2 3 h rfl hfree hunlocked,
    (independence_run true n m hdisjoint).2 events d rfl hunlocked'⟩

end Hall

end DoubleEntry
