import DoubleEntry.Proofs.Drafts
set_option autoImplicit false

/-! # How a unit of work ends

A unit of work that ends gives back its locks and its pins, whether it is committed or rolled back
(`Bank.closed`). A rollback leaves what the others see as it was (`Bank.Sound.within_rollback`); a
commit makes of the ledger what the deeds of the unit of work make of it (`Bank.Reflects.commit`).
-/

namespace DoubleEntry

open Function (update update_self update_of_ne)

theorem Lock.without_leave {o : Owner} {l : Lock} (hh : l.holder ≠ o) :
    (l.leave o).without o = l.without o := by
  simp [without, hh, leave, List.filter_filter]

namespace Bank

variable {b : Bank} {o p : Owner} {awaits : Owner → Option Int} {a : Int} {ds : List Deed}

/-! ## Giving up waiting -/

theorem Sound.abandon (h : b.Sound awaits) (ha : awaits o = some a) :
    b.Within o (b.abandon o a) ∧ (∃ locks, b.abandon o a = { b with locks }) ∧
      (b.abandon o a).Sound (update awaits o none) := by
  obtain ⟨-, l, hl, -⟩ := h.locking.asked ha
  unfold Bank.abandon
  rw [hl]
  dsimp only
  -- The lock may have been given to the owner before it gives up.
  by_cases hh : l.holder = o
  · rw [if_pos hh]
    exact ⟨h.within_release hl hh, ⟨_, release_eq b a⟩, h.release ha hl hh⟩
  · rw [if_neg hh]
    refine ⟨.of_locks fun k => ?_, ⟨_, rfl⟩, h.with_locks (h.locking.leave ha hl hh)⟩
    rw [Table.get?_insert]
    by_cases hk : k = a
    · rw [if_pos hk, hk, hl, Option.bind_some, Option.bind_some, Lock.without_leave hh]
    · rw [if_neg hk]

/-! ## Giving back locks and pins -/

/-- The bank after a unit of work has given back its locks and its pins, with the given versions of
the rows and the given entries and transfers. -/
def closed (b : Bank) (o : Owner) (left : Int → Row → Account × Account)
    (transfers : Table Transfer) (entries : Table Entry) : Bank :=
  { b with
    transfers
    entries
    accounts := b.accounts.collect fun a r => some
      { committed := (left a r).1
        working := (left a r).2
        pins := r.pins - (b.work o).pinned.count a }
    locks := b.locks.collect fun a l => if a ∈ b.heldBy o then l.next? else some l
    works := b.works.filter fun x => x.1 ≠ o }

section Closed

variable {left : Int → Row → Account × Account} {transfers : Table Transfer}
  {entries : Table Entry}

theorem work_closed : (b.closed o left transfers entries).work = update b.work o {} :=
  work_closeWork b o

theorem work?_closed : (b.closed o left transfers entries).work? p =
    if p = o then none else b.work? p :=
  work?_closeWork b o p

theorem heldBy_closed : (b.closed o left transfers entries).heldBy = update b.heldBy o [] := by
  funext p
  unfold heldBy
  rw [work_closed]
  by_cases hp : p = o
  · subst hp
    rw [update_self, update_self]
    rfl
  · rw [update_of_ne hp, update_of_ne hp]

/-- **A bank stays sound when a unit of work ends,** provided that each row that it had locked is
left with one version, which differs from the committed one at most in the balance. -/
theorem Sound.closed (h : b.Sound awaits) (ho : awaits o = none)
    (hin : ∀ {k r}, b.accounts.get? k = some r → k ∈ b.heldBy o →
      (left k r).2 = (left k r).1 ∧ ∃ balance, (left k r).1 = { r.committed with balance })
    (hout : ∀ {k r}, k ∉ b.heldBy o → left k r = r.versions)
    (htransfers : ∀ k t, transfers.get? k = some t →
      t ∈ (b.work o).transfers ∨ b.transfers.get? k = some t)
    (hentries : ∀ k e, entries.get? k = some e →
      e ∈ (b.work o).entries ∨ b.entries.get? k = some e) :
    (b.closed o left transfers entries).Sound awaits where
  locking := by
    rw [heldBy_closed]
    exact h.locking.give_back_all ho
  settled := by
    have hheld : (fun p => ((b.closed o left transfers entries).work p).held) =
        update (fun p => (b.work p).held) o [] := by
      funext p
      rw [work_closed]
      by_cases hp : p = o
      · subst hp
        rw [update_self, update_self]
      · rw [update_of_ne hp, update_of_ne hp]
    rw [hheld]
    show Settled (b.accounts.collect fun k r => some
      (⟨(left k r).1, (left k r).2, r.pins - (b.work o).pinned.count k⟩ : Row)) _
    refine h.settled.unlock (fun p hp k hk ho' => hp (h.locking.owner_eq hk ho')) ?_ ?_
    · exact hin
    · exact hout
  anchored := by
    refine h.anchored.close (o := o) rfl (fun k => ?_) htransfers hentries
    unfold Bank.closed
    rw [Table.get?_collect]
    cases b.accounts.get? k <;> rfl

theorem Sound.keeps_closed (h : b.Sound awaits) (hp : p ≠ o)
    (hout : ∀ {k r}, k ∉ b.heldBy o → left k r = r.versions) :
    b.Keeps p (b.closed o left transfers entries) := by
  refine .of_work? ?_ rfl fun k hk => ?_
  · rw [work?_closed, if_neg hp]
  · -- No two owners hold the same row.
    have hnot : k ∉ b.heldBy o := fun ho => hp (h.locking.owner_eq hk ho)
    unfold Bank.closed
    rw [Table.get?_collect]
    cases b.accounts.get? k with
    | none => rfl
    | some r => simp [hout hnot, Row.versions]

end Closed

/-! ## Rolling back -/

/-- What a rollback makes of the versions of a row. -/
theorem rollback_eq_closed (hn : (b.heldBy o).Nodup) : b.rollback o = b.closed o
    (fun a r => (r.committed, Hold.restored (b.work o).held a r.working)) b.transfers b.entries :=
  rollback_eq hn

theorem not_isOpen_rollback (h : b.Sound awaits) : ¬ (b.rollback o).IsOpen o := by
  unfold IsOpen
  rw [rollback_eq_closed (h.locking.once o), work?_closed, if_pos rfl]
  simp

/-- **A rollback keeps a bank sound.** -/
theorem Sound.rollback (h : b.Sound awaits) (ho : awaits o = none) :
    (b.rollback o).Sound awaits := by
  rw [rollback_eq_closed (h.locking.once o)]
  refine h.closed ho (fun hr hk => ?_) (fun hk => ?_) (fun k t ht => .inr ht) fun k e he => .inr he
  · exact ⟨h.settled.restored_eq (h.locking.once o) hr hk, _, rfl⟩
  · exact Prod.ext rfl (Settled.restored_of_not_mem _ hk)

/-- **Nobody else notices a rollback.** -/
theorem Sound.within_rollback (h : b.Sound awaits) : b.Within o (b.rollback o) := by
  rw [rollback_eq_closed (h.locking.once o)]
  exact
    { works := by
        show (b.works.filter fun x => x.1 ≠ o).filter (fun x => x.1 ≠ o) = _
        rw [List.filter_filter]
        congr 1
        funext x
        exact Bool.and_self _
      rows := by
        intro k
        rw [work_closed, update_self]
        unfold Bank.closed
        rw [Table.get?_collect]
        cases b.accounts.get? k <;> simp [Row.without, Hold.restored]
      locks := by
        intro k
        unfold Bank.closed
        rw [Table.get?_collect]
        cases hl : b.locks.get? k with
        | none => rfl
        | some l =>
            -- A lock that is given back goes to whoever would have it without the owner.
            by_cases hk : k ∈ b.heldBy o
            · obtain ⟨m, hm, hh⟩ := h.locking.held hk
              obtain rfl := Option.some.inj (hl.symm.trans hm)
              rw [Option.bind_some, if_pos hk]
              exact Lock.next?_bind_without hh (h.locking.queue hl).1
            · rw [Option.bind_some, if_neg hk]
      entries := rfl
      transfers := rfl
      nonNegative := rfl
      clock := rfl
      nextAccount := rfl
      nextEntry := le_rfl
      nextTransfer := le_rfl }

/-! ## Committing -/

theorem commit_eq_closed (ho : b.IsOpen o) (hn : (b.heldBy o).Nodup) : b.commit o = b.closed o
    (fun a r => (if a ∈ b.heldBy o then r.working else r.committed, r.working))
    ((b.work o).transfers.foldl (fun t x => t.insert x.id x) b.transfers)
    ((b.work o).entries.foldl (fun t x => t.insert x.id x) b.entries) :=
  commit_eq ho hn

/-- **A commit keeps a bank sound.** -/
theorem Sound.commit (h : b.Sound awaits) (hopen : b.IsOpen o) (ho : awaits o = none) :
    (b.commit o).Sound awaits := by
  rw [commit_eq_closed hopen (h.locking.once o)]
  refine h.closed ho (fun {k r} hr hk => ?_) (fun {k r} hk => ?_) (fun k t ht => ?_)
    fun k e he => ?_
  · dsimp only
    rw [if_pos hk]
    exact ⟨rfl, _, (h.settled.stamped hr).2⟩
  · rw [if_neg hk]
    rfl
  · exact (Table.of_get?_foldl_insert ht).imp_left And.left
  · exact (Table.of_get?_foldl_insert he).imp_left And.left

theorem Sound.keeps_commit (h : b.Sound awaits) (hopen : b.IsOpen o) (hp : p ≠ o) :
    b.Keeps p (b.commit o) := by
  rw [commit_eq_closed hopen (h.locking.once o)]
  refine h.keeps_closed hp fun {k r} hk => ?_
  rw [if_neg hk]
  rfl

theorem not_isOpen_commit (h : b.Sound awaits) (hopen : b.IsOpen o) :
    ¬ (b.commit o).IsOpen o := by
  unfold IsOpen
  rw [commit_eq_closed hopen (h.locking.once o), work?_closed, if_pos rfl]
  simp

/-- **A commit enacts the deeds of the unit of work on the ledger,** all of them at once. -/
theorem Reflects.commit (h : b.Reflects o ds) (hb : b.Sound awaits) (hopen : b.IsOpen o) :
    (b.commit o).ledger = b.ledger.enactAll ds := by
  rw [commit_eq_closed hopen (hb.locking.once o)]
  refine Ledger.ext (Table.ext fun a => ?_) ?_ ?_
  · rw [get?_ledger]
    unfold Bank.closed
    rw [Table.get?_collect]
    by_cases ha : a ∈ b.heldBy o
    · cases hr : b.accounts.get? a with
      | none =>
          rw [Ledger.get?_enactAll h.admitted, get?_ledger, hr]
          rfl
      | some r =>
          rw [h.working ha hr]
          simp [ha]
    · -- Rows that the unit of work has not locked are not adjusted either.
      rw [Ledger.get?_enactAll_of_not_adjusted fun d hd e => ha (h.adjusted hd e), get?_ledger]
      cases b.accounts.get? a <;> simp [ha]
  · rw [Ledger.entries_enactAll, ← h.entries]
    rfl
  · rw [Ledger.transfers_enactAll, ← h.transfers]
    rfl

end Bank

end DoubleEntry
