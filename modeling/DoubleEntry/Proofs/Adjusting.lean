import DoubleEntry.Proofs.Sound
set_option autoImplicit false

/-! # Locking rows and adjusting balances

Asking for the lock of a row, taking a row whose lock was given, and adjusting its working copy. An
owner that asks is told at once whether it has the lock, waits for it, or asks for a row that does
not exist; `Bank.acquire_cases` lists what happens to the lock in each case.
-/

namespace DoubleEntry

namespace Lock

variable {o : Owner} {l : Lock}

theorem without_enqueue (hh : l.holder ≠ o) (hw : o ∉ l.waiting) :
    (l.enqueue o).without o = l.without o := by
  simp [without, hh, leave, enqueue, hw]

/-- Passing a lock on is what the others see of its holder going away. -/
theorem next?_bind_without (hh : l.holder = o) (hq : l.holder ∉ l.waiting) :
    l.next?.bind (without o) = l.without o := by
  obtain ⟨holder, waiting⟩ := l
  subst hh
  cases waiting with
  | nil => simp [without, next?]
  | cons p rest =>
      rw [List.mem_cons, not_or] at hq
      simp [without, next?, leave, Ne.symm hq.1]
      exact fun q hq' e => hq.2 (e ▸ hq')

end Lock

namespace Bank

open Function (update update_self update_of_ne)

variable {b : Bank} {o : Owner} {awaits : Owner → Option Int} {a delta : Int} {r : Row} {l : Lock}

/-! ## Asking for a lock -/

theorem acquire_cases (b : Bank) (o : Owner) (a : Int) :
    (b.locks.get? a = none ∧ b.accounts.contains a = true ∧
      b.acquire o a = (.granted, { b with locks := b.locks.insert a ⟨o, []⟩ })) ∨
    (b.locks.get? a = none ∧ b.accounts.contains a = false ∧ b.acquire o a = (.missing, b)) ∨
    ∃ l, b.locks.get? a = some l ∧
      ((l.holder = o ∧ b.accounts.contains a = true ∧ b.acquire o a = (.granted, b)) ∨
      (l.holder = o ∧ b.accounts.contains a = false ∧
        b.acquire o a = (.missing, b.release a)) ∨
      (l.holder ≠ o ∧ o ∈ l.waiting ∧ b.acquire o a = (.waiting, b)) ∨
      (l.holder ≠ o ∧ o ∉ l.waiting ∧ b.accounts.contains a = true ∧ b.acquire o a =
        (.waiting, { b with locks := b.locks.insert a (l.enqueue o) })) ∨
      (l.holder ≠ o ∧ o ∉ l.waiting ∧ b.accounts.contains a = false ∧
        b.acquire o a = (.missing, b))) := by
  unfold acquire
  cases hl : b.locks.get? a with
  | none => cases hc : b.accounts.contains a <;> simp
  | some l =>
      dsimp only
      by_cases hh : l.holder = o
      · cases hc : b.accounts.contains a <;> simp [hh]
      · by_cases hw : o ∈ l.waiting
        · simp [hh, hw]
        · cases hc : b.accounts.contains a <;> simp [hh, hw]

theorem without_insert_free (h : b.locks.get? a = none) (k : Int) :
    ((b.locks.insert a ⟨o, []⟩).get? k).bind (Lock.without o) =
      (b.locks.get? k).bind (Lock.without o) := by
  rw [Table.get?_insert]
  by_cases hk : k = a
  · rw [if_pos hk, hk, h]
    simp [Lock.without, Lock.next?]
  · rw [if_neg hk]

theorem Sound.within_release (h : b.Sound awaits) (hl : b.locks.get? a = some l)
    (hh : l.holder = o) : b.Within o (b.release a) := by
  rw [release_eq]
  refine Within.of_locks fun k => ?_
  rw [Table.get?_collect]
  by_cases hk : k = a
  · rw [hk, hl, Option.bind_some, if_pos rfl, Option.bind_some]
    exact Lock.next?_bind_without hh (h.locking.queue hl).1
  · cases b.locks.get? k with
    | none => rfl
    | some m => simp [hk]

theorem Sound.release (h : b.Sound awaits) (ha : awaits o = some a)
    (hl : b.locks.get? a = some l) (hh : l.holder = o) :
    (b.release a).Sound (update awaits o none) := by
  rw [release_eq]
  exact h.with_locks (h.locking.give_back ha hl hh)

/-- Whoever has the lock of a row, or stands in its queue, without having locked the row has asked
for it. -/
theorem Sound.awaits_of_lock (h : b.Sound awaits) (hn : a ∉ b.heldBy o)
    (hl : b.locks.get? a = some l) (ho : l.holder = o ∨ o ∈ l.waiting) : awaits o = some a := by
  rcases ho with rfl | hw
  · exact (h.locking.holder hl).resolve_left hn
  · exact h.locking.waiter hl hw

/-- Whoever neither has the lock of a row nor stands in its queue has not asked for it. -/
theorem Sound.awaits_eq_none (h : b.Sound awaits) (ha : awaits o = none ∨ awaits o = some a)
    (hl : ∀ l, b.locks.get? a = some l → l.holder ≠ o ∧ o ∉ l.waiting) : awaits o = none := by
  refine ha.resolve_right fun hsome => ?_
  obtain ⟨-, l, hl', ho⟩ := h.locking.asked hsome
  exact ho.elim (hl l hl').1 (hl l hl').2

/-- **Asking for a lock.** The owner has been given it, waits for it, or asked for a row that does
not exist; nobody else notices. -/
theorem Sound.acquire (h : b.Sound awaits) (ha : awaits o = none ∨ awaits o = some a)
    (hn : a ∉ b.heldBy o) :
    b.Within o (b.acquire o a).2 ∧ (∃ locks, (b.acquire o a).2 = { b with locks }) ∧
    match (b.acquire o a).1 with
    | .granted => b.accounts.contains a = true ∧
        (∃ l, (b.acquire o a).2.locks.get? a = some l ∧ l.holder = o) ∧
        (b.acquire o a).2.Sound (update awaits o (some a))
    | .waiting => (∃ l, (b.acquire o a).2.locks.get? a = some l ∧ o ∈ l.waiting) ∧
        (b.acquire o a).2.Sound (update awaits o (some a))
    | .missing => b.accounts.contains a = false ∧
        (b.acquire o a).2.Sound (update awaits o none) := by
  have hsame : ∀ {x}, awaits o = x → update awaits o x = awaits := fun e => by
    rw [← e, Function.update_eq_self]
  rcases acquire_cases b o a with ⟨hl, hc, heq⟩ | ⟨hl, hc, heq⟩ | ⟨l, hl, hcase⟩
  · -- The lock is free.
    have hnone := h.awaits_eq_none ha fun l hl' => by simp [hl] at hl'
    rw [heq]
    exact ⟨.of_locks (without_insert_free hl), ⟨_, rfl⟩, hc, ⟨⟨o, []⟩, by simp, rfl⟩,
      h.with_locks (h.locking.ask_free hnone hl)⟩
  · -- There is no such row.
    have hnone := h.awaits_eq_none ha fun l hl' => by simp [hl] at hl'
    rw [heq]
    refine ⟨.refl o b, ⟨b.locks, rfl⟩, hc, ?_⟩
    rw [hsame hnone]
    exact h
  · have hnot : l.holder ≠ o → o ∉ l.waiting → awaits o = none := fun hh hw =>
      h.awaits_eq_none ha fun m hm => by
        obtain rfl := Option.some.inj (hl.symm.trans hm)
        exact ⟨hh, hw⟩
    rcases hcase with ⟨hh, hc, heq⟩ | ⟨hh, hc, heq⟩ | ⟨hh, hw, heq⟩ | ⟨hh, hw, hc, heq⟩ |
      ⟨hh, hw, hc, heq⟩
    · -- The lock was given to the owner while it waited.
      rw [heq]
      refine ⟨.refl o b, ⟨b.locks, rfl⟩, hc, ⟨l, hl, hh⟩, ?_⟩
      rw [hsame (h.awaits_of_lock hn hl (.inl hh))]
      exact h
    · -- The row was deleted while the owner waited; the lock goes to the next.
      rw [heq]
      refine ⟨h.within_release hl hh, ⟨_, release_eq b a⟩, hc, ?_⟩
      exact h.release (h.awaits_of_lock hn hl (.inl hh)) hl hh
    · -- The owner stands in the queue already.
      rw [heq]
      refine ⟨.refl o b, ⟨b.locks, rfl⟩, ⟨l, hl, hw⟩, ?_⟩
      rw [hsame (h.awaits_of_lock hn hl (.inr hw))]
      exact h
    · -- Somebody else has the lock.
      rw [heq]
      refine ⟨.of_locks fun k => ?_, ⟨_, rfl⟩, ⟨l.enqueue o, by simp, by simp⟩,
        h.with_locks (h.locking.ask_busy (hnot hh hw) hl hh)⟩
      rw [Table.get?_insert]
      by_cases hk : k = a
      · rw [if_pos hk, hk, hl, Option.bind_some, Option.bind_some, Lock.without_enqueue hh hw]
      · rw [if_neg hk]
    · rw [heq]
      refine ⟨.refl o b, ⟨b.locks, rfl⟩, hc, ?_⟩
      rw [hsame (hnot hh hw)]
      exact h

/-- Asking for a lock, answer by answer. Only the locks change; a row whose lock is given is held
by nobody. -/
theorem Sound.acquire_answers (h : b.Sound awaits) (ha : awaits o = none ∨ awaits o = some a)
    (hn : a ∉ b.heldBy o) : ∃ locks, b.Within o { b with locks } ∧
    ((b.acquire o a = (.missing, { b with locks }) ∧ b.accounts.contains a = false ∧
        ({ b with locks } : Bank).Sound (update awaits o none)) ∨
      (b.acquire o a = (.waiting, { b with locks }) ∧
        ({ b with locks } : Bank).Sound (update awaits o (some a)) ∧
        ∃ l, locks.get? a = some l ∧ o ∈ l.waiting) ∨
      (b.acquire o a = (.granted, { b with locks }) ∧
        ({ b with locks } : Bank).Sound (update awaits o (some a)) ∧
        (∃ l, locks.get? a = some l ∧ l.holder = o) ∧ (∀ p, a ∉ b.heldBy p) ∧
        ∃ r, b.accounts.get? a = some r ∧ r.working = r.committed)) := by
  obtain ⟨hwithin, ⟨locks, hlocks⟩, hcase⟩ := h.acquire ha hn
  rw [hlocks] at hwithin hcase
  refine ⟨locks, hwithin, ?_⟩
  cases hgrant : (b.acquire o a).1 with
  | missing =>
      rw [hgrant] at hcase
      exact .inl ⟨Prod.ext hgrant hlocks, hcase⟩
  | waiting =>
      rw [hgrant] at hcase
      exact .inr (.inl ⟨Prod.ext hgrant hlocks, hcase.2, hcase.1⟩)
  | granted =>
      rw [hgrant] at hcase
      obtain ⟨hcontains, ⟨l, hl, hh⟩, hsound⟩ := hcase
      obtain ⟨r, hr⟩ := Table.contains_iff.1 hcontains
      -- The row had been left settled, for the one that gave the lock back is done with it.
      have hfree := hsound.locking.not_mem_of_given (update_self _ _ _) hl hh
      exact .inr (.inr ⟨Prod.ext hgrant hlocks, hsound, ⟨l, hl, hh⟩, hfree, r, hr,
        h.settled.clean hr hfree⟩)

/-! ## Taking a row -/

/-- The bank after a unit of work has noted that it locked a row. -/
theorem hold_eq (hr : b.accounts.get? a = some r) : b.hold o a = b.modifyWork o fun w =>
    { w with held := w.held ++ [⟨a, r.working.balance⟩] } := by
  unfold hold
  rw [hr]

theorem isOpen_hold (hr : b.accounts.get? a = some r) (p : Owner) :
    (b.hold o a).IsOpen p ↔ b.IsOpen p := by
  rw [hold_eq hr]
  exact isOpen_modifyWork _ _ _ _

theorem held_hold (ho : b.IsOpen o) (hr : b.accounts.get? a = some r) :
    (fun p => ((b.hold o a).work p).held) =
      update (fun p => (b.work p).held) o ((b.work o).held ++ [⟨a, r.working.balance⟩]) := by
  funext p
  rw [hold_eq hr, work_modifyWork ho]
  by_cases hp : p = o
  · subst hp
    simp
  · rw [update_of_ne hp, update_of_ne hp]

theorem heldBy_hold (ho : b.IsOpen o) (hr : b.accounts.get? a = some r) :
    (b.hold o a).heldBy = update b.heldBy o (b.heldBy o ++ [a]) := by
  funext p
  have hheld := congrArg (List.map Hold.account) (congrFun (held_hold ho hr) p)
  refine Eq.trans hheld ?_
  by_cases hp : p = o
  · subst hp
    simp [heldBy, Work.locked]
  · rw [update_of_ne hp, update_of_ne hp]
    rfl

theorem Sound.hold (h : b.Sound awaits) (ho : b.IsOpen o) (ha : awaits o = some a)
    (hl : b.locks.get? a = some l) (hh : l.holder = o) (hr : b.accounts.get? a = some r) :
    (b.hold o a).Sound (update awaits o none) where
  locking := by
    rw [heldBy_hold ho hr, hold_eq hr]
    exact h.locking.take ha hl hh
  settled := by
    rw [held_hold ho hr, hold_eq hr]
    exact h.settled.hold hr (h.locking.not_mem_of_given ha hl hh)
  anchored := by
    rw [hold_eq hr]
    exact h.anchored.modifyWork ho rfl (fun t ht => h.anchored.stagedTransfer ht)
      fun e he => h.anchored.stagedEntry he

theorem within_hold (ho : b.IsOpen o) (a : Int) : b.Within o (b.hold o a) := by
  cases hr : b.accounts.get? a with
  | none =>
      unfold Bank.hold
      rw [hr]
      exact .refl o b
  | some r =>
      rw [hold_eq hr]
      refine ⟨filter_modifyWork b o _, fun k => ?_, fun _ => rfl, rfl, rfl, rfl, rfl, rfl, le_rfl,
        le_rfl⟩
      rw [work_modifyWork ho, update_self, accounts_modifyWork]
      cases hk : b.accounts.get? k with
      | none => rfl
      | some s =>
          -- The balance that is noted is the one that the row has.
          have hrestored : Hold.restored ((b.work o).held ++ [⟨a, r.working.balance⟩]) k s.working =
              Hold.restored (b.work o).held k s.working := by
            unfold Hold.restored
            rw [List.find?_append]
            cases hf : (b.work o).held.find? fun g => g.account = k with
            | some g => rfl
            | none =>
                by_cases hka : a = k
                · subst hka
                  rw [hr] at hk
                  obtain rfl := Option.some.inj hk
                  simp
                · simp [hka]
          simp only [Option.map_some, Row.without, hrestored]

/-! ## Adjusting a balance -/

theorem checkBalance_cases (b : Bank) (a balance : Int) :
    (b.nonNegative = true ∧ balance < 0 ∧ b.checkBalance a balance =
      .error (.constraintViolation (.negativeBalance a balance))) ∨
    ((b.nonNegative = true → 0 ≤ balance) ∧ b.checkBalance a balance = .ok ()) := by
  unfold checkBalance
  by_cases h : b.nonNegative = true ∧ balance < 0
  · exact .inl ⟨h.1, h.2, if_pos h⟩
  · exact .inr ⟨fun hb => Int.not_lt.1 fun hlt => h ⟨hb, hlt⟩, if_neg h⟩

theorem adjust_cases (hr : b.accounts.get? a = some r) (delta : Int) :
    (¬ Amount.InRange (r.working.balance + delta) ∧
      b.adjust a delta = (.error (.constraintViolation (.balanceOutOfRange a)), b)) ∨
    (b.nonNegative = true ∧ r.working.balance + delta < 0 ∧ b.adjust a delta =
      (.error (.constraintViolation (.negativeBalance a (r.working.balance + delta))), b)) ∨
    (Amount.InRange (r.working.balance + delta) ∧
      (b.nonNegative = true → 0 ≤ r.working.balance + delta) ∧ b.adjust a delta =
        (.ok { r.working with balance := r.working.balance + delta },
          b.modifyRow a (Row.draft { r.working with balance := r.working.balance + delta }))) := by
  unfold adjust
  rw [hr]
  dsimp only
  by_cases hin : Amount.InRange (r.working.balance + delta)
  · rw [Amount.add?_eq_some_iff.2 ⟨rfl, hin⟩]
    dsimp only
    rcases checkBalance_cases b a (r.working.balance + delta) with ⟨hb, hneg, heq⟩ | ⟨hb, heq⟩
    · rw [heq]
      exact .inr (.inl ⟨hb, hneg, rfl⟩)
    · rw [heq]
      exact .inr (.inr ⟨hin, hb, rfl⟩)
  · rw [Amount.add?_eq_none_iff.2 hin]
    exact .inl ⟨hin, rfl⟩

/-- The bank after a unit of work has adjusted a row that it has locked. -/
theorem Sound.draft (h : b.Sound awaits) (hr : b.accounts.get? a = some r)
    (ha : a ∈ b.heldBy o) (balance : Int) :
    (b.modifyRow a (Row.draft { r.working with balance })).Sound awaits where
  locking := h.locking
  settled := h.settled.adjust hr ha balance
  anchored := h.anchored.modifyRow fun _ => rfl

theorem within_draft (hr : b.accounts.get? a = some r) (ha : a ∈ b.heldBy o) (balance : Int) :
    b.Within o (b.modifyRow a (Row.draft { r.working with balance })) where
  works := rfl
  rows k := by
    rw [accounts_modifyRow, work_modifyRow, Table.get?_modify]
    by_cases hk : k = a
    · subst hk
      obtain ⟨g, hg, e⟩ := List.mem_map.1 ha
      have hsome : ((b.work o).held.find? fun g => g.account = k).isSome := by
        rw [List.find?_isSome]
        exact ⟨g, hg, by simpa using e⟩
      obtain ⟨g', hg'⟩ := Option.isSome_iff_exists.1 hsome
      rw [if_pos rfl, hr]
      simp [Row.without, Row.draft, Hold.restored, hg']
    · rw [if_neg hk]
  locks _ := rfl
  entries := rfl
  transfers := rfl
  nonNegative := rfl
  clock := rfl
  nextAccount := rfl
  nextEntry := le_rfl
  nextTransfer := le_rfl

/-- Adjusting a row that the unit of work has locked. -/
theorem Sound.adjust (h : b.Sound awaits) (ha : a ∈ b.heldBy o) (delta : Int) :
    (b.adjust a delta).2.Sound awaits ∧ b.Within o (b.adjust a delta).2 := by
  obtain ⟨g, hg, rfl⟩ := List.mem_map.1 ha
  obtain ⟨r, hr, -⟩ := h.settled.prior hg
  rcases adjust_cases hr delta with ⟨-, heq⟩ | ⟨-, -, heq⟩ | ⟨-, -, heq⟩
  · rw [heq]
    exact ⟨h, .refl o b⟩
  · rw [heq]
    exact ⟨h, .refl o b⟩
  · rw [heq]
    exact ⟨h.draft hr ha _, within_draft hr ha _⟩

/-- An adjustment changes versions of rows and nothing else. -/
theorem adjust_accounts (b : Bank) (a delta : Int) : ∃ accounts,
    (b.adjust a delta).2 = { b with accounts } ∧
      ∀ k, accounts.contains k = b.accounts.contains k := by
  cases hr : b.accounts.get? a with
  | none =>
      unfold Bank.adjust
      rw [hr]
      exact ⟨b.accounts, rfl, fun _ => rfl⟩
  | some r =>
      rcases adjust_cases hr delta with ⟨-, heq⟩ | ⟨-, -, heq⟩ | ⟨-, -, heq⟩
      · rw [heq]
        exact ⟨b.accounts, rfl, fun _ => rfl⟩
      · rw [heq]
        exact ⟨b.accounts, rfl, fun _ => rfl⟩
      · rw [heq]
        exact ⟨_, rfl, fun k => Table.contains_modify _ _ _ _⟩

theorem adjust_works (b : Bank) (a delta : Int) : (b.adjust a delta).2.works = b.works := by
  obtain ⟨accounts, heq, -⟩ := adjust_accounts b a delta
  rw [heq]

/-! ## Adding to a balance -/

/-- **What adding to a balance comes to.** The unit of work waits; or there is no such row; or it
has locked the row, before or just now, and adjusts it. -/
theorem Sound.addBalance_cases (h : b.Sound awaits) (ho : b.IsOpen o)
    (ha : awaits o = none ∨ awaits o = some a) (delta : Int) :
    (∃ locks, b.addBalance o a delta = (none, { b with locks }) ∧ a ∉ b.heldBy o ∧
      b.Within o { b with locks } ∧ ({ b with locks } : Bank).Sound (update awaits o (some a)) ∧
      ∃ l, locks.get? a = some l ∧ o ∈ l.waiting) ∨
    (∃ locks, b.addBalance o a delta = (some (.error (.accountNotFound a)), { b with locks }) ∧
      b.accounts.contains a = false ∧ b.Within o { b with locks } ∧
      ({ b with locks } : Bank).Sound (update awaits o none)) ∨
    ∃ b', b.addBalance o a delta = (some (b'.adjust a delta).1, (b'.adjust a delta).2) ∧
      b.Within o b' ∧ b'.Sound (update awaits o none) ∧ b'.IsOpen o ∧ a ∈ b'.heldBy o ∧
      (b' = b ∨ (∀ p, a ∉ b.heldBy p) ∧ ∃ r, b.accounts.get? a = some r ∧
        r.working = r.committed ∧ ∃ locks, b' = ({ b with locks } : Bank).hold o a) := by
  by_cases hheld : a ∈ b.heldBy o
  · -- The row is locked already, so the owner cannot be waiting for it.
    have hnone : awaits o = none := ha.resolve_right fun hsome => (h.locking.asked hsome).1 hheld
    have hsame : update awaits o none = awaits := by rw [← hnone, Function.update_eq_self]
    refine .inr (.inr ⟨b, ?_, .refl o b, by rwa [hsame], ho, hheld, .inl rfl⟩)
    unfold addBalance
    rw [if_pos (Work.holds_iff.2 hheld)]
  · -- The lock of the row is asked for, and the row taken if it is given.
    obtain ⟨locks, hwithin, hcase⟩ := h.acquire_answers ha hheld
    unfold Bank.addBalance
    rw [if_neg fun e => hheld (Work.holds_iff.1 e)]
    rcases hcase with ⟨heq, hmissing, hsound⟩ | ⟨heq, hsound, hwaits⟩ |
      ⟨heq, hsound, ⟨l, hl, hh⟩, hfree, r, hr, hclean⟩
    · rw [heq]
      exact .inr (.inl ⟨locks, rfl, hmissing, hwithin, hsound⟩)
    · rw [heq]
      exact .inl ⟨locks, rfl, hheld, hwithin, hsound, hwaits⟩
    · rw [heq]
      have ho' : ({ b with locks } : Bank).IsOpen o := ho
      have hr' : ({ b with locks } : Bank).accounts.get? a = some r := hr
      have hhold := hsound.hold ho' (update_self _ _ _) hl hh hr'
      rw [Function.update_idem] at hhold
      refine .inr (.inr ⟨_, rfl, hwithin.trans (within_hold ho' a), hhold, ?_, ?_,
        .inr ⟨hfree, r, hr, hclean, locks, rfl⟩⟩)
      · exact (isOpen_hold hr' o).2 ho'
      · rw [heldBy_hold ho' hr', update_self]
        simp

/-- Adding to a balance, as the others see it. -/
theorem Sound.addBalance (h : b.Sound awaits) (ho : b.IsOpen o)
    (ha : awaits o = none ∨ awaits o = some a) (delta : Int) :
    b.Within o (b.addBalance o a delta).2 ∧ (b.addBalance o a delta).2.IsOpen o ∧
      (b.addBalance o a delta).2.Sound (update awaits o
        (if (b.addBalance o a delta).1.isNone then some a else none)) := by
  rcases h.addBalance_cases ho ha delta with ⟨locks, heq, -, hwithin, hsound, -⟩ |
    ⟨locks, heq, -, hwithin, hsound⟩ | ⟨b', heq, hwithin, hsound, ho', hheld, -⟩
  · rw [heq]
    exact ⟨hwithin, ho, by simpa using hsound⟩
  · rw [heq]
    exact ⟨hwithin, ho, by simpa using hsound⟩
  · rw [heq]
    obtain ⟨hs, hw⟩ := hsound.adjust hheld delta
    refine ⟨hwithin.trans hw, ?_, by simpa using hs⟩
    unfold IsOpen work? at ho' ⊢
    rwa [adjust_works]

/-- A unit of work that adjusted a balance has locked the row, once. -/
theorem Sound.heldBy_addBalance (h : b.Sound awaits) (ho : b.IsOpen o)
    (ha : awaits o = none ∨ awaits o = some a) (delta : Int) :
    ((b.addBalance o a delta).1 = none →
      a ∉ b.heldBy o ∧ (b.addBalance o a delta).2.heldBy o = b.heldBy o) ∧
    ∀ account, (b.addBalance o a delta).1 = some (.ok account) →
      (b.addBalance o a delta).2.heldBy o =
        if a ∈ b.heldBy o then b.heldBy o else b.heldBy o ++ [a] := by
  rcases h.addBalance_cases ho ha delta with ⟨locks, heq, hnot, -⟩ | ⟨locks, heq, -⟩ |
    ⟨b', heq, -, -, -, hheld, hcase⟩
  · rw [heq]
    exact ⟨fun _ => ⟨hnot, rfl⟩, fun account e => (nomatch e)⟩
  · rw [heq]
    exact ⟨fun e => (nomatch e), fun account e => (nomatch e)⟩
  · rw [heq]
    refine ⟨fun e => (nomatch e), fun account _ => ?_⟩
    have hsame : (b'.adjust a delta).2.heldBy o = b'.heldBy o := by
      unfold Bank.heldBy Bank.work Bank.work?
      rw [adjust_works]
    rw [hsame]
    rcases hcase with rfl | ⟨hfree, r, hr, -, locks, rfl⟩
    · rw [if_pos hheld]
    · have ho' : ({ b with locks } : Bank).IsOpen o := ho
      rw [if_neg (hfree o), heldBy_hold ho' hr, update_self]
      rfl

end Bank

end DoubleEntry
