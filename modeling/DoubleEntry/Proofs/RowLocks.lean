import DoubleEntry.Proofs.Interleaving
set_option autoImplicit false

/-! # Locked rows

A row is locked by one unit of work at a time, which finds it again when it commits. Up to then its
working copy is the committed version with the sum of what the unit of work added to the balance,
and what the unit of work remembers is the committed balance. A row that nobody has locked has no
draft.
-/

namespace DoubleEntry

/-- What a call that was answered added to the balance of an account: nothing if it failed. -/
def Exchange.added (a : Int) : Exchange → Int
  | ⟨.addBalance account delta, .ok _⟩ => if account = a then delta else 0
  | _ => 0

theorem Exchange.change_deeds (a : Int) (x : Exchange) :
    (x.deeds.map (Deed.change a)).sum = x.added a := by
  obtain ⟨c, answer⟩ := x
  cases c with
  | addBalance account delta =>
      cases answer with
      | ok answer => simp [deeds, Deed.noted, Deed.change, added]
      | error e => rfl
  | _ => cases answer <;> simp [deeds, Deed.noted, Deed.change, added]

/-- The deeds of a unit of work add to a balance what its calls added. -/
theorem sum_added (a : Int) (xs : List Exchange) :
    ((xs.flatMap Exchange.deeds).map (Deed.change a)).sum = (xs.map (Exchange.added a)).sum := by
  induction xs with
  | nil => rfl
  | cons x xs ih =>
      rw [List.flatMap_cons, List.map_append, List.sum_append, ih, Exchange.change_deeds,
        List.map_cons, List.sum_cons]

/-- **Locked rows and their drafts.** -/
structure Hall.RowsLocked (h : Hall) : Prop where
  /-- No two units of work have locked the same row. -/
  exclusive : ∀ {o p a}, a ∈ h.bank.heldBy o → a ∈ h.bank.heldBy p → o = p
  /-- No unit of work has locked a row twice. -/
  once : ∀ o, (h.bank.heldBy o).Nodup
  /-- A unit of work that has locked a row has its lock, and the row exists. -/
  present : ∀ {o a}, a ∈ h.bank.heldBy o →
    h.bank.accounts.contains a = true ∧ ∃ l, h.bank.locks.get? a = some l ∧ l.holder = o
  /-- A commit skips none of the rows that the unit of work has locked. -/
  published : ∀ {o a r}, a ∈ h.bank.heldBy o → h.bank.accounts.get? a = some r →
    ∃ r', (h.bank.commit o).accounts.get? a = some r' ∧ r'.committed = r.working
  /-- Without its lock, nobody has locked a row. -/
  unlocked : ∀ {a}, h.bank.locks.get? a = none → ∀ o, a ∉ h.bank.heldBy o
  /-- The working copy of a row that nobody has locked is the committed version. -/
  clean : ∀ {a r}, h.bank.accounts.get? a = some r → (∀ o, a ∉ h.bank.heldBy o) →
    r.working = r.committed
  /-- The working copy of a row that a unit of work has locked is the committed version, but for
  what the calls of the unit of work added to the balance. -/
  drafted : ∀ {o r} {hold : Hold}, hold ∈ (h.bank.work o).held →
    h.bank.accounts.get? hold.account = some r →
      hold.prior = r.committed.balance ∧ r.working = { r.committed with
        balance := r.committed.balance + ((h.log o).map (Exchange.added hold.account)).sum }

namespace Hall

/-- **A sound hall has its rows locked.** -/
theorem Sound.rowsLocked {h : Hall} (h₀ : h.Sound) : h.RowsLocked where
  exclusive := h₀.bank.locking.owner_eq
  once := h₀.bank.locking.once
  present := by
    intro o a ha
    obtain ⟨hold, hmem, rfl⟩ := List.mem_map.1 ha
    obtain ⟨r, hr, -⟩ := h₀.bank.settled.prior hmem
    exact ⟨Table.contains_iff.2 ⟨r, hr⟩, h₀.bank.locking.held ha⟩
  published := by
    intro o a r ha hr
    have ho : h.bank.IsOpen o := Bank.isOpen_of_mem_heldBy ha
    rw [Bank.commit_eq ho (h₀.bank.locking.once o)]
    refine ⟨⟨r.working, r.working, r.pins - (h.bank.work o).pinned.count a⟩, ?_, rfl⟩
    rw [Table.get?_collect, hr]
    simp [ha]
  unlocked := h₀.bank.locking.not_mem_of_free
  clean := h₀.bank.settled.clean
  drafted := by
    intro o r hold hmem hr
    have ha : hold.account ∈ h.bank.heldBy o := List.mem_map.2 ⟨hold, hmem, rfl⟩
    have hreflects := h₀.reflects (Bank.isOpen_of_mem_heldBy ha)
    have hledger : h.bank.ledger.accounts.get? hold.account = some r.committed := by
      rw [Bank.get?_ledger, hr]
      rfl
    have hworking := hreflects.working ha hr
    rw [Ledger.get?_enactAll hreflects.admitted, hledger] at hworking
    obtain ⟨r', hr', hprior⟩ := h₀.bank.settled.prior hmem
    obtain rfl := Option.some.inj (hr.symm.trans hr')
    refine ⟨hprior.symm, ?_⟩
    rw [← sum_added]
    exact (Option.some.inj hworking).symm

/-- **Rows are locked by one unit of work at a time, and nothing of a balance is lost,** in whatever
order calls, account statements, cancellations, rollbacks and drops follow each other. The bank of
every desk comes about in such an order. -/
theorem rows_locked_run (nonNegative : Bool) :
    (∀ ms, ((opening nonNegative).afterAll ms).RowsLocked) ∧
    ∀ es, ∃ ms, ((opening nonNegative).afterAll ms).bank =
        ((Desk.opening nonNegative).afterAll es).bank ∧
      ((opening nonNegative).afterAll ms).awaits =
        ((Desk.opening nonNegative).afterAll es).awaits :=
  ⟨fun ms => (sound_run nonNegative ms).rowsLocked, comes_desk nonNegative⟩

end Hall

end DoubleEntry
