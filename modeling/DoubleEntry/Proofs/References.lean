import DoubleEntry.Proofs.Interleaving
set_option autoImplicit false

/-! # References and pins

Whatever a transfer or an entry names exists, committed or staged, and the pins of a row are
counted exactly. So taking pins off never finds a row missing or without pins, on none of the ways
on which a unit of work ends: its pins are taken off one by one (`Bank.Unpins`), and a unit of work
that has ended and is dropped afterwards has none left.
-/

namespace DoubleEntry

namespace Bank

/-- **Pins are taken off rows that have them:** each pin of the list finds its row, and a pin left
on it, after those before it were taken off. -/
def Unpins (b : Bank) : List Int → Prop
  | [] => True
  | a :: rest => (∃ r, b.accounts.get? a = some r ∧ 0 < r.pins) ∧ (b.unpin a).Unpins rest

/-- Rows with as many pins as are to be taken off. -/
theorem unpins_of_count {l : List Int} {b : Bank}
    (h : ∀ a ∈ l, ∃ r, b.accounts.get? a = some r ∧ l.count a ≤ r.pins) : b.Unpins l := by
  induction l generalizing b with
  | nil => trivial
  | cons a rest ih =>
      obtain ⟨r, hr, hcount⟩ := h a List.mem_cons_self
      rw [List.count_cons_self] at hcount
      refine ⟨⟨r, hr, by omega⟩, ih fun k hk => ?_⟩
      obtain ⟨s, hs, hle⟩ := h k (List.mem_cons_of_mem a hk)
      unfold unpin modifyRow
      dsimp only
      rw [Table.get?_modify]
      by_cases hka : k = a
      · -- The row of the first pin has one pin less, and one pin less to lose.
        subst hka
        rw [List.count_cons_self] at hle
        rw [if_pos rfl, hs]
        exact ⟨_, rfl, by dsimp only; omega⟩
      · rw [List.count_cons_of_ne (Ne.symm hka)] at hle
        rw [if_neg hka]
        exact ⟨s, hs, hle⟩

/-- A unit of work that has gone through all that it had locked, pinned and staged. -/
def drain (b : Bank) (o : Owner) : Bank := b.modifyWork o fun _ => {}

/-- **References hold, and pins are counted.** -/
structure Referential (b : Bank) : Prop where
  entry : ∀ {k e}, b.entries.get? k = some e → b.accounts.contains e.account = true
  transfer : ∀ {k t}, b.transfers.get? k = some t →
    b.accounts.contains t.source = true ∧ b.accounts.contains t.target = true
  stagedEntry : ∀ {o e}, e ∈ (b.work o).entries → b.accounts.contains e.account = true
  stagedTransfer : ∀ {o t}, t ∈ (b.work o).transfers →
    b.accounts.contains t.source = true ∧ b.accounts.contains t.target = true
  /-- A row has as many pins as the open units of work have put on it. -/
  pins : ∀ {a r}, b.accounts.get? a = some r →
    r.pins = (b.works.flatMap fun x => x.2.pinned).count a
  pinned : ∀ {o a}, a ∈ (b.work o).pinned → b.accounts.contains a = true
  /-- A commit finds each pin that it takes off, after the working copies were published. -/
  committing : ∀ {o w}, b.work? o = some w → ((b.insertStaged w).publish w.held).Unpins w.pinned
  /-- So does a rollback or a drop, after the balances were restored and the locks given back. -/
  restoring : ∀ {o w}, b.work? o = some w → ((b.restore w.held).releaseAll w.held).Unpins w.pinned
  /-- A commit leaves a unit of work with nothing that its drop could undo or take off again. -/
  committed : ∀ {o w}, b.work? o = some w →
    (((((b.insertStaged w).publish w.held).unpinAll w.pinned).releaseAll w.held).drain o).rollback
      o = b.commit o
  /-- So does a rollback. -/
  rolledBack : ∀ {o w}, b.work? o = some w →
    ((((b.restore w.held).releaseAll w.held).unpinAll w.pinned).drain o).rollback o = b.rollback o

variable {b b' : Bank} {awaits : Owner → Option Int} {o : Owner}

theorem isOpen_of_work? {w : Work} (hw : b.work? o = some w) : b.IsOpen o := by
  unfold IsOpen
  rw [hw]
  rfl

/-- Dropping a unit of work that has nothing left only closes it. -/
theorem rollback_drain (ho : b.IsOpen o) : (b.drain o).rollback o = b.closeWork o := by
  have hwork : (b.drain o).work? o = some {} := by
    unfold drain
    rw [work?_modifyWork, if_pos rfl, work?_of_isOpen ho]
    rfl
  have hworks : ((b.drain o).closeWork o).works = (b.closeWork o).works :=
    filter_modifyWork b o fun _ => {}
  unfold rollback
  rw [hwork]
  show ({ b with works := ((b.drain o).closeWork o).works } : Bank) = b.closeWork o
  rw [hworks]
  rfl

/-- The pins that one unit of work has put on a row are among all that it has. -/
theorem Anchored.count_le (h : b.Anchored) (o : Owner) {a : Int} {r : Row}
    (hr : b.accounts.get? a = some r) : (b.work o).pinned.count a ≤ r.pins := by
  have hcount := count_pinned_filter (o := o) h.distinct a
  have hpins := h.pins hr
  omega

/-- Taking off the pins of a unit of work, whatever else was done to the rows. -/
theorem Anchored.unpins (h : b.Anchored) (o : Owner)
    (hsame : ∀ a, (b'.accounts.get? a).map Row.pins = (b.accounts.get? a).map Row.pins) :
    b'.Unpins (b.work o).pinned := by
  refine unpins_of_count fun a ha => ?_
  obtain ⟨r, hr⟩ := Table.contains_iff.1 (h.pinned (pinned_of_work ha))
  have hpins := hsame a
  rw [hr, Option.map_some, Option.map_eq_some_iff] at hpins
  obtain ⟨r', hr', hle⟩ := hpins
  have hcount := h.count_le o hr
  exact ⟨r', hr', by omega⟩

/-- **A sound bank keeps its references.** -/
theorem Sound.referential (h : b.Sound awaits) : b.Referential where
  entry := h.anchored.entry
  transfer := h.anchored.transfer
  stagedEntry he := h.anchored.pinned (pinned_of_work (h.anchored.stagedEntry he))
  stagedTransfer := by
    intro o t ht
    obtain ⟨hs, htg⟩ := h.anchored.stagedTransfer ht
    exact ⟨h.anchored.pinned (pinned_of_work hs), h.anchored.pinned (pinned_of_work htg)⟩
  pins := h.anchored.pins
  pinned ha := h.anchored.pinned (pinned_of_work ha)
  committing := by
    intro o w hw
    obtain rfl := work_of_work? hw
    refine h.anchored.unpins o fun a => ?_
    rw [publish_eq]
    simp only [Table.get?_collect]
    show Option.map Row.pins ((b.accounts.get? a).bind _) = _
    cases b.accounts.get? a with
    | none => rfl
    | some r => by_cases ha : a ∈ (b.work o).held.map Hold.account <;> simp [ha]
  restoring := by
    intro o w hw
    obtain rfl := work_of_work? hw
    refine h.anchored.unpins o fun a => ?_
    rw [releaseAll_eq _ (h.locking.once o), restore_eq _ (h.locking.once o)]
    simp only [Table.get?_collect]
    cases b.accounts.get? a <;> rfl
  committed := by
    intro o w hw
    obtain rfl := work_of_work? hw
    have hopen : ((((b.insertStaged (b.work o)).publish (b.work o).held).unpinAll
        (b.work o).pinned).releaseAll (b.work o).held).IsOpen o := by
      rw [releaseAll_eq _ (h.locking.once o), unpinAll_eq, publish_eq]
      exact isOpen_of_work? hw
    rw [rollback_drain hopen, Bank.commit, hw]
  rolledBack := by
    intro o w hw
    obtain rfl := work_of_work? hw
    have hopen : (((b.restore (b.work o).held).releaseAll (b.work o).held).unpinAll
        (b.work o).pinned).IsOpen o := by
      rw [unpinAll_eq, releaseAll_eq _ (h.locking.once o), restore_eq _ (h.locking.once o)]
      exact isOpen_of_work? hw
    rw [rollback_drain hopen, Bank.rollback, hw]

end Bank

/-- **Whatever is named exists, and pins are counted and taken off exactly,** in whatever order
staging, commits, rollbacks, drops, cancellations and deletions follow each other, at a bank that is
used call by call and at every desk. -/
theorem Hall.references_run (nonNegative : Bool) :
    (∀ ms, ((opening nonNegative).afterAll ms).bank.Referential) ∧
    ∀ es, ((Desk.opening nonNegative).afterAll es).bank.Referential := by
  have hhall : ∀ ms, ((opening nonNegative).afterAll ms).bank.Referential := fun ms =>
    (sound_run nonNegative ms).bank.referential
  refine ⟨hhall, fun es => ?_⟩
  obtain ⟨ms, hbank, -⟩ := comes_desk nonNegative es
  rw [← hbank]
  exact hhall ms

end DoubleEntry
