import DoubleEntry.Proofs.Ledger
import DoubleEntry.Proofs.Pins
set_option autoImplicit false

/-! # Sound banks

A bank is sound when its locks, its rows and its pins are in order (`Bank.Sound`), given which row
each owner awaits. This module shows it for the small steps that the operations of a bank consist
of, and says of each step that the owner that takes it touches nothing but its own: `Bank.Within`
compares two banks without regard to what one owner has locked, pinned and staged.
-/

namespace DoubleEntry

open Function (update update_self update_of_ne)

/-- The lock of a row as it would be had an owner never asked for it. -/
def Lock.without (o : Owner) (l : Lock) : Option Lock :=
  if l.holder = o then l.next? else some (l.leave o)

/-- The row of an account as it would be had a unit of work not locked or pinned it. -/
def Row.without (w : Work) (a : Int) (r : Row) : Row :=
  { r with working := Hold.restored w.held a r.working, pins := r.pins - w.pinned.count a }

@[simp] theorem Row.without_empty (a : Int) (r : Row) : Row.without {} a r = r := by
  simp [Row.without, Hold.restored]

namespace Bank

/-- **A sound bank:** locks, rows and pins are in order. -/
structure Sound (b : Bank) (awaits : Owner → Option Int) : Prop where
  locking : Locking b.locks b.heldBy awaits
  settled : Settled b.accounts fun o => (b.work o).held
  anchored : b.Anchored

/-- **Two banks that differ at most in what one owner has in flight,** and in the numbers that were
drawn from the first to the second. -/
structure Within (o : Owner) (b b' : Bank) : Prop where
  works : (b'.works.filter fun x => x.1 ≠ o) = b.works.filter fun x => x.1 ≠ o
  rows : ∀ a, (b'.accounts.get? a).map (Row.without (b'.work o) a) =
    (b.accounts.get? a).map (Row.without (b.work o) a)
  locks : ∀ a, (b'.locks.get? a).bind (Lock.without o) = (b.locks.get? a).bind (Lock.without o)
  entries : b'.entries = b.entries
  transfers : b'.transfers = b.transfers
  nonNegative : b'.nonNegative = b.nonNegative
  clock : b'.clock = b.clock
  nextAccount : b'.nextAccount = b.nextAccount
  nextEntry : b.nextEntry ≤ b'.nextEntry
  nextTransfer : b.nextTransfer ≤ b'.nextTransfer

namespace Within

variable {o p : Owner} {b b' b'' : Bank}

theorem refl (o : Owner) (b : Bank) : b.Within o b :=
  ⟨rfl, fun _ => rfl, fun _ => rfl, rfl, rfl, rfl, rfl, rfl, le_rfl, le_rfl⟩

theorem trans (h : b.Within o b') (h' : b'.Within o b'') : b.Within o b'' where
  works := h'.works.trans h.works
  rows a := (h'.rows a).trans (h.rows a)
  locks a := (h'.locks a).trans (h.locks a)
  entries := h'.entries.trans h.entries
  transfers := h'.transfers.trans h.transfers
  nonNegative := h'.nonNegative.trans h.nonNegative
  clock := h'.clock.trans h.clock
  nextAccount := h'.nextAccount.trans h.nextAccount
  nextEntry := h.nextEntry.trans h'.nextEntry
  nextTransfer := h.nextTransfer.trans h'.nextTransfer

theorem work? (h : b.Within o b') (hp : p ≠ o) : b'.work? p = b.work? p := by
  have hfilter := congrArg (List.lookup p) h.works
  rw [lookup_filter_ne, lookup_filter_ne, if_neg hp, if_neg hp] at hfilter
  exact hfilter

theorem work (h : b.Within o b') (hp : p ≠ o) : b'.work p = b.work p := by
  unfold Bank.work
  rw [h.work? hp]

theorem heldBy (h : b.Within o b') (hp : p ≠ o) : b'.heldBy p = b.heldBy p := by
  unfold Bank.heldBy
  rw [h.work hp]

/-- Nothing that one owner has in flight is visible. -/
theorem ledger (h : b.Within o b') : b'.ledger = b.ledger := by
  have haccounts : b'.ledger.accounts = b.ledger.accounts := by
    apply Table.ext
    intro a
    rw [get?_ledger, get?_ledger]
    have ha := congrArg (Option.map Row.committed) (h.rows a)
    rwa [Option.map_map, Option.map_map] at ha
  exact Ledger.ext haccounts h.entries h.transfers

/-- Locks alone. -/
theorem of_locks {locks : Table Lock}
    (h : ∀ a, (locks.get? a).bind (Lock.without o) = (b.locks.get? a).bind (Lock.without o)) :
    b.Within o { b with locks } :=
  ⟨rfl, fun _ => rfl, h, rfl, rfl, rfl, rfl, rfl, le_rfl, le_rfl⟩

end Within

theorem filter_modifyWork (b : Bank) (o : Owner) (f : Work → Work) :
    ((b.modifyWork o f).works.filter fun x => x.1 ≠ o) = b.works.filter fun x => x.1 ≠ o := by
  unfold modifyWork
  dsimp only
  induction b.works with
  | nil => rfl
  | cons x rest ih =>
      rw [List.map_cons]
      by_cases hx : x.1 = o
      · rw [if_pos hx, List.filter_cons_of_neg (by simp), ih,
          List.filter_cons_of_neg (by simpa using hx)]
      · rw [if_neg hx, List.filter_cons_of_pos (by simpa using hx), ih,
          List.filter_cons_of_pos (by simpa using hx)]

namespace Sound

variable {b : Bank} {awaits : Owner → Option Int} {o : Owner} {a : Int} {r : Row} {l : Lock}

/-- Locks alone. -/
theorem with_locks (h : b.Sound awaits) {locks : Table Lock} {awaits' : Owner → Option Int}
    (hl : Locking locks b.heldBy awaits') : ({ b with locks } : Bank).Sound awaits' :=
  ⟨hl, h.settled, ⟨h.anchored.distinct, h.anchored.pins, h.anchored.pinned,
    h.anchored.stagedTransfer, h.anchored.stagedEntry, h.anchored.transfer, h.anchored.entry⟩⟩

/-- Numbers and the clock do not matter. -/
theorem with_numbers (h : b.Sound awaits) (clock : Timestamp)
    (nextAccount nextEntry nextTransfer : Int) :
    ({ b with clock, nextAccount, nextEntry, nextTransfer } : Bank).Sound awaits :=
  ⟨h.locking, h.settled, ⟨h.anchored.distinct, h.anchored.pins, h.anchored.pinned,
    h.anchored.stagedTransfer, h.anchored.stagedEntry, h.anchored.transfer, h.anchored.entry⟩⟩

theorem begin (h : b.Sound awaits) (ho : ¬ b.IsOpen o) : (b.begin o).Sound awaits where
  locking := by
    have hheld : (b.begin o).heldBy = b.heldBy := by
      unfold heldBy
      rw [work_begin]
    rw [hheld]
    exact h.locking
  settled := by
    rw [work_begin]
    exact h.settled
  anchored := h.anchored.begin ho

end Sound

/-- A bank without accounts is sound. -/
theorem sound_empty (nonNegative : Bool) : (Bank.empty nonNegative).Sound fun _ => none where
  locking := ⟨fun ha => (nomatch ha), fun hl => (nomatch hl), fun hl => (nomatch hl),
    fun hl => (nomatch hl), fun ha => (nomatch ha), fun _ => List.nodup_nil⟩
  settled := ⟨fun hr => (nomatch hr), fun hh => (nomatch hh), fun hr => (nomatch hr)⟩
  anchored := ⟨List.nodup_nil, fun hr => (nomatch hr), fun ha => (nomatch ha),
    fun ht => (nomatch ht), fun he => (nomatch he), fun ht => (nomatch ht), fun he => (nomatch he)⟩

theorem within_begin (b : Bank) (o : Owner) : b.Within o (b.begin o) where
  works := by
    unfold begin
    rw [List.filter_append, List.filter_cons_of_neg (by simp), List.filter_nil, List.append_nil]
  rows a := by rw [work_begin]; rfl
  locks _ := rfl
  entries := rfl
  transfers := rfl
  nonNegative := rfl
  clock := rfl
  nextAccount := rfl
  nextEntry := le_rfl
  nextTransfer := le_rfl

/-! ## Staging -/

section AddPin

variable {b : Bank} {o : Owner} {awaits : Owner → Option Int} {f : Work → Work}

theorem held_modifyWork (ho : b.IsOpen o) (hheld : (f (b.work o)).held = (b.work o).held) :
    (fun p => ((b.modifyWork o f).work p).held) = fun p => (b.work p).held := by
  funext p
  rw [work_modifyWork ho]
  by_cases hp : p = o
  · subst hp
    rw [update_self, hheld]
  · rw [update_of_ne hp]

theorem heldBy_modifyWork (ho : b.IsOpen o) (hheld : (f (b.work o)).held = (b.work o).held) :
    (b.modifyWork o f).heldBy = b.heldBy := by
  funext p
  exact congrArg (List.map Hold.account) (congrFun (held_modifyWork ho hheld) p)

variable (a : Int)

theorem heldBy_addPin (ho : b.IsOpen o) : (b.addPin o a).heldBy = b.heldBy :=
  heldBy_modifyWork (b := b.modifyRow a _) ho rfl

theorem versions_addPin (k : Int) : ((b.addPin o a).accounts.get? k).map Row.versions =
    (b.accounts.get? k).map Row.versions := by
  unfold addPin
  rw [accounts_modifyWork, accounts_modifyRow, Table.get?_modify]
  by_cases hk : k = a
  · rw [if_pos hk, Option.map_map]
    rfl
  · rw [if_neg hk]

variable {a}

theorem Sound.addPin (h : b.Sound awaits) (ho : b.IsOpen o)
    (ha : b.accounts.contains a = true) : (b.addPin o a).Sound awaits where
  locking := by
    rw [heldBy_addPin a ho]
    exact h.locking
  settled := by
    have hheld : (fun p => ((b.addPin o a).work p).held) = fun p => (b.work p).held :=
      held_modifyWork (b := b.modifyRow a _) ho rfl
    rw [hheld]
    exact h.settled.of_versions (versions_addPin a)
  anchored := h.anchored.addPin ho ha

theorem within_addPin (ho : b.IsOpen o) : b.Within o (b.addPin o a) where
  works := filter_modifyWork (b.modifyRow a _) o _
  rows k := by
    rw [work_addPin a ho, update_self]
    unfold Bank.addPin
    rw [accounts_modifyWork, accounts_modifyRow, Table.get?_modify]
    by_cases hk : k = a
    · subst hk
      rw [if_pos rfl, Option.map_map]
      congr 1
      funext r
      simp [Row.without]
    · have hcount : ([a] : List Int).count k = 0 := by simp [Ne.symm hk]
      rw [if_neg hk]
      congr 1
      funext r
      simp only [Row.without, List.count_append, hcount, Nat.add_zero]
  locks _ := rfl
  entries := rfl
  transfers := rfl
  nonNegative := rfl
  clock := rfl
  nextAccount := rfl
  nextEntry := le_rfl
  nextTransfer := le_rfl

end AddPin

/-- The bank after a unit of work has staged a transfer. -/
def stageTransfer (b : Bank) (o : Owner) (t : Transfer) : Bank :=
  { b with nextTransfer := b.nextTransfer + 1 }.modifyWork o fun w =>
    { w with transfers := w.transfers ++ [t] }

/-- The bank after a unit of work has staged an entry. -/
def stageEntry (b : Bank) (o : Owner) (e : Entry) : Bank :=
  { b with nextEntry := b.nextEntry + 1 }.modifyWork o fun w =>
    { w with entries := w.entries ++ [e] }

/-- Staging a transfer pins the source, then the target, and then gives the number. -/
theorem createTransfer_cases (b : Bank) (o : Owner) (n : NewTransfer) :
    (¬ b.accounts.contains n.source = true ∧ b.createTransfer o n =
      (.error (.constraintViolation (.missingAccount .transfer n.source)), b)) ∨
    (b.accounts.contains n.source = true ∧ ¬ b.accounts.contains n.target = true ∧
      b.createTransfer o n =
        (.error (.constraintViolation (.missingAccount .transfer n.target)),
          b.addPin o n.source)) ∨
    (b.accounts.contains n.source = true ∧ b.accounts.contains n.target = true ∧
      ∃ t : Transfer, t = ⟨b.nextTransfer, n.source, n.target, n.amount, b.clock⟩ ∧
        b.createTransfer o n =
          (.ok t, ((b.addPin o n.source).addPin o n.target).stageTransfer o t)) := by
  unfold createTransfer
  by_cases hs : b.accounts.contains n.source = true
  · rw [pin_of_contains hs]
    dsimp only
    by_cases ht : b.accounts.contains n.target = true
    · have ht' : (b.addPin o n.source).accounts.contains n.target = true := by simpa using ht
      rw [pin_of_contains ht']
      exact .inr (.inr ⟨hs, ht, _, rfl, rfl⟩)
    · have ht' : ¬ (b.addPin o n.source).accounts.contains n.target = true := by simpa using ht
      rw [pin_of_missing ht']
      exact .inr (.inl ⟨hs, ht, rfl⟩)
  · rw [pin_of_missing hs]
    exact .inl ⟨hs, rfl⟩

theorem createEntry_cases (b : Bank) (o : Owner) (n : NewEntry) :
    (¬ b.accounts.contains n.account = true ∧ b.createEntry o n =
      (.error (.constraintViolation (.missingAccount .entry n.account)), b)) ∨
    (b.accounts.contains n.account = true ∧
      ∃ e : Entry, e = ⟨b.nextEntry, n.account, n.amount, b.clock⟩ ∧
        b.createEntry o n = (.ok e, (b.addPin o n.account).stageEntry o e)) := by
  unfold createEntry
  by_cases ha : b.accounts.contains n.account = true
  · rw [pin_of_contains ha]
    exact .inr ⟨ha, _, rfl, rfl⟩
  · rw [pin_of_missing ha]
    exact .inl ⟨ha, rfl⟩

theorem locks_createTransfer (b : Bank) (o : Owner) (n : NewTransfer) :
    (b.createTransfer o n).2.locks = b.locks := by
  rcases createTransfer_cases b o n with ⟨-, heq⟩ | ⟨-, -, heq⟩ | ⟨-, -, t, -, heq⟩
  · rw [heq]
  · rw [heq]
    rfl
  · rw [heq]
    rfl

theorem locks_createEntry (b : Bank) (o : Owner) (n : NewEntry) :
    (b.createEntry o n).2.locks = b.locks := by
  rcases createEntry_cases b o n with ⟨-, heq⟩ | ⟨-, e, -, heq⟩
  · rw [heq]
  · rw [heq]
    rfl

section ModifyWork

variable {b : Bank} {o : Owner} {awaits : Owner → Option Int} {f : Work → Work}

/-- Staging a row whose accounts are pinned. -/
theorem Sound.modifyWork (h : b.Sound awaits) (ho : b.IsOpen o)
    (hheld : (f (b.work o)).held = (b.work o).held)
    (hpinned : (f (b.work o)).pinned = (b.work o).pinned)
    (htransfers : ∀ t ∈ (f (b.work o)).transfers,
      t.source ∈ (b.work o).pinned ∧ t.target ∈ (b.work o).pinned)
    (hentries : ∀ e ∈ (f (b.work o)).entries, e.account ∈ (b.work o).pinned) :
    (b.modifyWork o f).Sound awaits where
  locking := by
    rw [heldBy_modifyWork ho hheld]
    exact h.locking
  settled := by
    rw [held_modifyWork ho hheld]
    exact h.settled
  anchored := h.anchored.modifyWork ho hpinned htransfers hentries

theorem within_modifyWork (ho : b.IsOpen o) (hheld : (f (b.work o)).held = (b.work o).held)
    (hpinned : (f (b.work o)).pinned = (b.work o).pinned) : b.Within o (b.modifyWork o f) where
  works := filter_modifyWork b o f
  rows a := by
    rw [work_modifyWork ho, update_self, accounts_modifyWork]
    congr 1
    funext r
    simp only [Row.without, hheld, hpinned]
  locks _ := rfl
  entries := rfl
  transfers := rfl
  nonNegative := rfl
  clock := rfl
  nextAccount := rfl
  nextEntry := le_rfl
  nextTransfer := le_rfl

theorem Sound.stageTransfer (h : b.Sound awaits) (ho : b.IsOpen o) {t : Transfer}
    (hs : t.source ∈ (b.work o).pinned) (ht : t.target ∈ (b.work o).pinned) :
    (b.stageTransfer o t).Sound awaits := by
  refine (h.with_numbers b.clock b.nextAccount b.nextEntry (b.nextTransfer + 1)).modifyWork ho rfl
    rfl (fun u hu => ?_) fun e he => h.anchored.stagedEntry he
  rcases List.mem_append.1 hu with hu | hu
  · exact h.anchored.stagedTransfer hu
  · rw [List.mem_singleton.1 hu]
    exact ⟨hs, ht⟩

theorem Sound.stageEntry (h : b.Sound awaits) (ho : b.IsOpen o) {e : Entry}
    (he : e.account ∈ (b.work o).pinned) : (b.stageEntry o e).Sound awaits := by
  refine (h.with_numbers b.clock b.nextAccount (b.nextEntry + 1) b.nextTransfer).modifyWork ho rfl
    rfl (fun u hu => h.anchored.stagedTransfer hu) fun u hu => ?_
  rcases List.mem_append.1 hu with hu | hu
  · exact h.anchored.stagedEntry hu
  · rw [List.mem_singleton.1 hu]
    exact he

theorem within_stageTransfer (ho : b.IsOpen o) (t : Transfer) :
    b.Within o (b.stageTransfer o t) := by
  have hnext : b.Within o { b with nextTransfer := b.nextTransfer + 1 } :=
    ⟨rfl, fun _ => rfl, fun _ => rfl, rfl, rfl, rfl, rfl, rfl, le_rfl, by simp⟩
  exact hnext.trans (within_modifyWork ho rfl rfl)

theorem within_stageEntry (ho : b.IsOpen o) (e : Entry) : b.Within o (b.stageEntry o e) := by
  have hnext : b.Within o { b with nextEntry := b.nextEntry + 1 } :=
    ⟨rfl, fun _ => rfl, fun _ => rfl, rfl, rfl, rfl, rfl, rfl, by simp, le_rfl⟩
  exact hnext.trans (within_modifyWork ho rfl rfl)

end ModifyWork

section Staging

variable {b : Bank} {o : Owner} {awaits : Owner → Option Int}

theorem mem_pinned_addPin (ho : b.IsOpen o) (a : Int) : a ∈ ((b.addPin o a).work o).pinned := by
  rw [work_addPin a ho, update_self]
  simp

theorem mem_pinned_addPin_of_mem (ho : b.IsOpen o) (a : Int) {k : Int}
    (hk : k ∈ (b.work o).pinned) : k ∈ ((b.addPin o a).work o).pinned := by
  rw [work_addPin a ho, update_self]
  exact List.mem_append_left _ hk

/-- Recording a transfer in a unit of work. -/
theorem Sound.createTransfer (h : b.Sound awaits) (ho : b.IsOpen o) (n : NewTransfer) :
    (b.createTransfer o n).2.Sound awaits ∧ b.Within o (b.createTransfer o n).2 ∧
      (b.createTransfer o n).2.IsOpen o := by
  rcases createTransfer_cases b o n with ⟨-, heq⟩ | ⟨hs, -, heq⟩ | ⟨hs, ht, t, rfl, heq⟩
  · rw [heq]
    exact ⟨h, .refl o b, ho⟩
  · rw [heq]
    exact ⟨h.addPin ho hs, within_addPin ho, by simpa using ho⟩
  · rw [heq]
    have ho₁ : (b.addPin o n.source).IsOpen o := by simpa using ho
    have ho₂ : ((b.addPin o n.source).addPin o n.target).IsOpen o := by simpa using ho
    have hpinned := mem_pinned_addPin_of_mem ho₁ n.target (mem_pinned_addPin ho n.source)
    have hsound := ((h.addPin ho hs).addPin ho₁ (by simpa using ht)).stageTransfer ho₂
      (t := ⟨b.nextTransfer, n.source, n.target, n.amount, b.clock⟩) hpinned
      (mem_pinned_addPin ho₁ n.target)
    exact ⟨hsound, ((within_addPin ho).trans (within_addPin ho₁)).trans
      (within_stageTransfer ho₂ _), (isOpen_modifyWork _ _ _ _).2 ho₂⟩

/-- Recording an entry in a unit of work. -/
theorem Sound.createEntry (h : b.Sound awaits) (ho : b.IsOpen o) (n : NewEntry) :
    (b.createEntry o n).2.Sound awaits ∧ b.Within o (b.createEntry o n).2 ∧
      (b.createEntry o n).2.IsOpen o := by
  rcases createEntry_cases b o n with ⟨-, heq⟩ | ⟨ha, e, rfl, heq⟩
  · rw [heq]
    exact ⟨h, .refl o b, ho⟩
  · rw [heq]
    have ho₁ : (b.addPin o n.account).IsOpen o := by simpa using ho
    have hsound := (h.addPin ho ha).stageEntry ho₁
      (e := ⟨b.nextEntry, n.account, n.amount, b.clock⟩) (mem_pinned_addPin ho n.account)
    exact ⟨hsound, (within_addPin ho).trans (within_stageEntry ho₁ _),
      (isOpen_modifyWork _ _ _ _).2 ho₁⟩

theorem heldBy_createTransfer (ho : b.IsOpen o) (n : NewTransfer) :
    (b.createTransfer o n).2.heldBy = b.heldBy := by
  rcases createTransfer_cases b o n with ⟨-, heq⟩ | ⟨-, -, heq⟩ | ⟨-, -, t, -, heq⟩
  · rw [heq]
  · rw [heq, heldBy_addPin _ ho]
  · rw [heq]
    have ho₁ : (b.addPin o n.source).IsOpen o := by simpa using ho
    have ho₂ : ((b.addPin o n.source).addPin o n.target).IsOpen o := by simpa using ho
    calc (((b.addPin o n.source).addPin o n.target).stageTransfer o t).heldBy
        = ((b.addPin o n.source).addPin o n.target).heldBy := heldBy_modifyWork ho₂ rfl
      _ = b.heldBy := by rw [heldBy_addPin _ ho₁, heldBy_addPin _ ho]

theorem heldBy_createEntry (ho : b.IsOpen o) (n : NewEntry) :
    (b.createEntry o n).2.heldBy = b.heldBy := by
  rcases createEntry_cases b o n with ⟨-, heq⟩ | ⟨-, e, -, heq⟩
  · rw [heq]
  · rw [heq]
    have ho₁ : (b.addPin o n.account).IsOpen o := by simpa using ho
    calc ((b.addPin o n.account).stageEntry o e).heldBy
        = (b.addPin o n.account).heldBy := heldBy_modifyWork ho₁ rfl
      _ = b.heldBy := heldBy_addPin _ ho

end Staging

end Bank

end DoubleEntry
