import DoubleEntry.Proofs.Units
set_option autoImplicit false

/-! # The lock discipline

Who may hold and who may wait for the lock of a row. The discipline relates three things: the table
of locks, the rows that each owner has locked, and the row that each owner has asked for and not yet
been answered about. It is kept by everything that happens to a lock: asking, taking a lock that was
given, giving it back, and giving up waiting.
-/

namespace DoubleEntry

open Function (update)

/-- **The lock discipline.** `rows o` are the rows that an owner has locked, `awaits o` is the row
that it has asked for. An owner that awaits a row may already have been given its lock. -/
structure Locking (locks : Table Lock) (rows : Owner → List Int) (awaits : Owner → Option Int) :
    Prop where
  held : ∀ {o a}, a ∈ rows o → ∃ l, locks.get? a = some l ∧ l.holder = o
  holder : ∀ {a l}, locks.get? a = some l → a ∈ rows l.holder ∨ awaits l.holder = some a
  waiter : ∀ {a l o}, locks.get? a = some l → o ∈ l.waiting → awaits o = some a
  queue : ∀ {a l}, locks.get? a = some l → l.holder ∉ l.waiting ∧ l.waiting.Nodup
  asked : ∀ {o a}, awaits o = some a →
    a ∉ rows o ∧ ∃ l, locks.get? a = some l ∧ (l.holder = o ∨ o ∈ l.waiting)
  once : ∀ o, (rows o).Nodup

namespace Lock

theorem next?_eq_some_iff {l m : Lock} : l.next? = some m ↔ l.waiting = m.holder :: m.waiting := by
  obtain ⟨h, w⟩ := l
  obtain ⟨h', w'⟩ := m
  cases w <;> simp [next?]

@[simp] theorem mem_enqueue {l : Lock} {o p : Owner} :
    p ∈ (l.enqueue o).waiting ↔ p ∈ l.waiting ∨ p = o := by
  unfold enqueue
  by_cases h : o ∈ l.waiting
  · rw [if_pos h]
    exact ⟨.inl, fun hp => hp.elim id fun e => e ▸ h⟩
  · rw [if_neg h]
    simp

@[simp] theorem holder_enqueue (l : Lock) (o : Owner) : (l.enqueue o).holder = l.holder := by
  unfold enqueue
  split <;> rfl

@[simp] theorem mem_leave {l : Lock} {o p : Owner} :
    p ∈ (l.leave o).waiting ↔ p ∈ l.waiting ∧ p ≠ o := by
  simp [leave]

@[simp] theorem holder_leave (l : Lock) (o : Owner) : (l.leave o).holder = l.holder := rfl

end Lock

namespace Locking

variable {locks : Table Lock} {rows : Owner → List Int} {awaits : Owner → Option Int}
  {o : Owner} {a : Int} {l : Lock}

/-- Two owners never hold the same row. -/
theorem owner_eq (h : Locking locks rows awaits) {p : Owner} (ho : a ∈ rows o) (hp : a ∈ rows p) :
    o = p := by
  obtain ⟨l, hl, rfl⟩ := h.held ho
  obtain ⟨m, hm, rfl⟩ := h.held hp
  rw [hl] at hm
  rw [Option.some.inj hm]

/-- A row whose lock was given to an owner that has not looked yet is locked by nobody. -/
theorem not_mem_of_given (h : Locking locks rows awaits) (ha : awaits o = some a)
    (hl : locks.get? a = some l) (hh : l.holder = o) (p : Owner) : a ∉ rows p := by
  intro hp
  obtain ⟨m, hm, rfl⟩ := h.held hp
  rw [hl] at hm
  obtain rfl := Option.some.inj hm
  exact (h.asked ha).1 (hh ▸ hp)

/-- A row without a lock is locked by nobody. -/
theorem not_mem_of_free (h : Locking locks rows awaits) (hl : locks.get? a = none) (p : Owner) :
    a ∉ rows p := by
  intro hp
  obtain ⟨m, hm, -⟩ := h.held hp
  rw [hl] at hm
  cases hm

/-- Asking for a row that is not locked: the lock is given at once. -/
theorem ask_free (h : Locking locks rows awaits) (ho : awaits o = none)
    (hl : locks.get? a = none) :
    Locking (locks.insert a ⟨o, []⟩) rows (update awaits o (some a)) where
  held := by
    intro p c hc
    have hne : c ≠ a := fun e => h.not_mem_of_free hl p (e ▸ hc)
    rw [Table.get?_insert, if_neg hne]
    exact h.held hc
  holder := by
    intro c m hm
    rcases Table.get?_insert_eq_some.1 hm with ⟨rfl, rfl⟩ | ⟨-, hm⟩
    · exact .inr (by simp)
    · by_cases hmo : m.holder = o
      · exact .inl ((h.holder hm).resolve_right fun e => by simp [hmo, ho] at e)
      · simpa [hmo] using h.holder hm
  waiter := by
    intro c m p hm hp
    rcases Table.get?_insert_eq_some.1 hm with ⟨rfl, rfl⟩ | ⟨-, hm⟩
    · cases hp
    · have hpc := h.waiter hm hp
      have hpo : p ≠ o := fun e => by simp [e, ho] at hpc
      simpa [hpo] using hpc
  queue := by
    intro c m hm
    rcases Table.get?_insert_eq_some.1 hm with ⟨rfl, rfl⟩ | ⟨-, hm⟩
    · simp
    · exact h.queue hm
  asked := by
    intro p c hp
    rw [Table.get?_insert]
    by_cases hpo : p = o
    · obtain rfl : a = c := by simpa [hpo] using hp
      refine ⟨h.not_mem_of_free hl p, ⟨o, []⟩, by simp, .inl hpo.symm⟩
    · have hpc : awaits p = some c := by simpa [hpo] using hp
      obtain ⟨hn, m, hm, hmp⟩ := h.asked hpc
      have hne : c ≠ a := fun e => by simp [e, hl] at hm
      exact ⟨hn, m, by simpa [hne] using hm, hmp⟩
  once := h.once

/-- Asking for a row that another owner has locked: the owner waits behind those that wait. -/
theorem ask_busy (h : Locking locks rows awaits) (ho : awaits o = none)
    (hl : locks.get? a = some l) (hne : l.holder ≠ o) :
    Locking (locks.insert a (l.enqueue o)) rows (update awaits o (some a)) where
  held := by
    intro p c hc
    obtain ⟨m, hm, hp⟩ := h.held hc
    rw [Table.get?_insert]
    by_cases hca : c = a
    · subst hca
      rw [hl] at hm
      obtain rfl := Option.some.inj hm
      exact ⟨l.enqueue o, by simp, by simpa using hp⟩
    · exact ⟨m, by simpa [hca] using hm, hp⟩
  holder := by
    intro c m hm
    rcases Table.get?_insert_eq_some.1 hm with ⟨rfl, rfl⟩ | ⟨-, hm⟩
    · simpa [hne] using h.holder hl
    · by_cases hmo : m.holder = o
      · exact .inl ((h.holder hm).resolve_right fun e => by simp [hmo, ho] at e)
      · simpa [hmo] using h.holder hm
  waiter := by
    intro c m p hm hp
    rcases Table.get?_insert_eq_some.1 hm with ⟨rfl, rfl⟩ | ⟨-, hm⟩
    · by_cases hpo : p = o
      · simp [hpo]
      · rw [Function.update_of_ne hpo]
        exact h.waiter hl ((Lock.mem_enqueue.1 hp).resolve_right hpo)
    · have hpc := h.waiter hm hp
      have hpo : p ≠ o := fun e => by simp [e, ho] at hpc
      rwa [Function.update_of_ne hpo]
  queue := by
    intro c m hm
    rcases Table.get?_insert_eq_some.1 hm with ⟨rfl, rfl⟩ | ⟨-, hm⟩
    · obtain ⟨hholder, hnodup⟩ := h.queue hl
      -- An owner that awaits nothing stands in no queue.
      have hnot : o ∉ l.waiting := fun hmem => by simp [h.waiter hl hmem] at ho
      refine ⟨by simp [hholder, hne], ?_⟩
      simp [Lock.enqueue, hnot, List.nodup_append, hnodup]
      exact fun x hx e => hnot (e ▸ hx)
    · exact h.queue hm
  asked := by
    intro p c hp
    rw [Table.get?_insert]
    by_cases hpo : p = o
    · obtain rfl : a = c := by simpa [hpo] using hp
      -- It has not locked the row itself, for then it would be the holder.
      refine ⟨fun hmem => ?_, l.enqueue o, by simp, .inr (by simp [hpo])⟩
      obtain ⟨m, hm, hmp⟩ := h.held hmem
      rw [hl] at hm
      obtain rfl := Option.some.inj hm
      exact hne (hmp.trans hpo)
    · have hpc : awaits p = some c := by simpa [hpo] using hp
      obtain ⟨hn, m, hm, hmp⟩ := h.asked hpc
      by_cases hca : c = a
      · subst hca
        rw [hl] at hm
        obtain rfl := Option.some.inj hm
        exact ⟨hn, l.enqueue o, by simp, hmp.imp (by simp) fun hw => by simp [hw]⟩
      · exact ⟨hn, m, by simpa [hca] using hm, hmp⟩
  once := h.once

/-- Taking a lock that was given: the owner has now locked the row. -/
theorem take (h : Locking locks rows awaits) (ha : awaits o = some a)
    (hl : locks.get? a = some l) (hh : l.holder = o) :
    Locking locks (update rows o (rows o ++ [a])) (update awaits o none) where
  held := by
    intro p c hc
    by_cases hpo : p = o
    · subst hpo
      rw [Function.update_self, List.mem_append, List.mem_singleton] at hc
      rcases hc with hc | rfl
      · exact h.held hc
      · exact ⟨l, hl, hh⟩
    · rw [Function.update_of_ne hpo] at hc
      exact h.held hc
  holder := by
    intro c m hm
    by_cases hmo : m.holder = o
    · refine .inl ?_
      rw [hmo, Function.update_self, List.mem_append, List.mem_singleton]
      rcases h.holder hm with hr | hr
      · exact .inl (hmo ▸ hr)
      · rw [hmo, ha] at hr
        exact .inr (Option.some.inj hr).symm
    · simpa [hmo] using h.holder hm
  waiter := by
    intro c m p hm hp
    have hpc := h.waiter hm hp
    -- Whoever has been given a lock does not wait for it any more.
    have hpo : p ≠ o := by
      rintro rfl
      rw [ha] at hpc
      obtain rfl := Option.some.inj hpc
      rw [hl] at hm
      obtain rfl := Option.some.inj hm
      exact (h.queue hl).1 (hh ▸ hp)
    simpa [hpo] using hpc
  queue := h.queue
  asked := by
    intro p c hp
    have hpo : p ≠ o := fun e => by simp [e] at hp
    rw [Function.update_of_ne hpo] at hp ⊢
    exact h.asked hp
  once := by
    intro p
    by_cases hpo : p = o
    · subst hpo
      rw [Function.update_self]
      exact List.nodup_append.2 ⟨h.once p, by simp, fun x hx y hy e =>
        (h.asked ha).1 (by rwa [e, List.mem_singleton.1 hy] at hx)⟩
    · rw [Function.update_of_ne hpo]
      exact h.once p

/-- Giving up waiting before the lock was given. -/
theorem leave (h : Locking locks rows awaits) (ha : awaits o = some a)
    (hl : locks.get? a = some l) (hne : l.holder ≠ o) :
    Locking (locks.insert a (l.leave o)) rows (update awaits o none) where
  held := by
    intro p c hc
    obtain ⟨m, hm, hp⟩ := h.held hc
    rw [Table.get?_insert]
    by_cases hca : c = a
    · subst hca
      rw [hl] at hm
      obtain rfl := Option.some.inj hm
      exact ⟨l.leave o, by simp, hp⟩
    · exact ⟨m, by simpa [hca] using hm, hp⟩
  holder := by
    intro c m hm
    rcases Table.get?_insert_eq_some.1 hm with ⟨rfl, rfl⟩ | ⟨hc, hm⟩
    · simpa [hne] using h.holder hl
    · by_cases hmo : m.holder = o
      · refine .inl ((h.holder hm).resolve_right fun e => hc ?_)
        rw [hmo, ha] at e
        exact (Option.some.inj e).symm
      · simpa [hmo] using h.holder hm
  waiter := by
    intro c m p hm hp
    rcases Table.get?_insert_eq_some.1 hm with ⟨rfl, rfl⟩ | ⟨hc, hm⟩
    · obtain ⟨hp, hpo⟩ := Lock.mem_leave.1 hp
      simpa [hpo] using h.waiter hl hp
    · have hpc := h.waiter hm hp
      have hpo : p ≠ o := by
        rintro rfl
        rw [ha] at hpc
        exact hc (Option.some.inj hpc).symm
      simpa [hpo] using hpc
  queue := by
    intro c m hm
    rcases Table.get?_insert_eq_some.1 hm with ⟨-, rfl⟩ | ⟨-, hm⟩
    · obtain ⟨hholder, hnodup⟩ := h.queue hl
      exact ⟨fun hmem => hholder (Lock.mem_leave.1 hmem).1, hnodup.filter _⟩
    · exact h.queue hm
  asked := by
    intro p c hp
    have hpo : p ≠ o := fun e => by simp [e] at hp
    rw [Function.update_of_ne hpo] at hp
    obtain ⟨hn, m, hm, hmp⟩ := h.asked hp
    rw [Table.get?_insert]
    by_cases hca : c = a
    · subst hca
      rw [hl] at hm
      obtain rfl := Option.some.inj hm
      exact ⟨hn, l.leave o, by simp, hmp.imp id fun hw => Lock.mem_leave.2 ⟨hw, hpo⟩⟩
    · exact ⟨hn, m, by simpa [hca] using hm, hmp⟩
  once := h.once

/-- **Handing over.** An owner gives back the locks of some rows, among them the one that it was
given last. Each goes to the owner that has waited longest for it. -/
theorem hand_over (h : Locking locks rows awaits) {given rest : List Int}
    (hgiven : ∀ c ∈ given, ∃ m, locks.get? c = some m ∧ m.holder = o)
    (hrest : ∀ c, c ∈ rest ↔ c ∈ rows o ∧ c ∉ given) (hn : rest.Nodup)
    (hask : ∀ c, awaits o = some c → c ∈ given) :
    Locking (locks.collect fun k m => if k ∈ given then m.next? else some m) (update rows o rest)
      (update awaits o none) where
  held := by
    intro p c hc
    by_cases hpo : p = o
    · subst hpo
      rw [Function.update_self] at hc
      obtain ⟨hr, hg⟩ := (hrest c).1 hc
      obtain ⟨m, hm, hp⟩ := h.held hr
      exact ⟨m, by simp [hm, hg], hp⟩
    · rw [Function.update_of_ne hpo] at hc
      obtain ⟨m, hm, hp⟩ := h.held hc
      have hg : c ∉ given := by
        intro hmem
        obtain ⟨k, hk, hko⟩ := hgiven c hmem
        rw [hm] at hk
        obtain rfl := Option.some.inj hk
        exact hpo (hp.symm.trans hko)
      exact ⟨m, by simp [hm, hg], hp⟩
  holder := by
    intro c m hm
    obtain ⟨k, hk, hm⟩ := Table.get?_collect_eq_some.1 hm
    by_cases hc : c ∈ given
    · -- The next owner has waited for this very row.
      rw [if_pos hc, Lock.next?_eq_some_iff] at hm
      have hmem : m.holder ∈ k.waiting := by simp [hm]
      obtain ⟨k', hk', hko⟩ := hgiven c hc
      rw [hk] at hk'
      obtain rfl := Option.some.inj hk'
      have hne : m.holder ≠ o := fun e => (h.queue hk).1 (by rw [hko, ← e]; exact hmem)
      exact .inr (by simpa [hne] using h.waiter hk hmem)
    · rw [if_neg hc] at hm
      obtain rfl := Option.some.inj hm
      by_cases hko : k.holder = o
      · have hr := (h.holder hk).resolve_right fun e => hc (hask c (hko ▸ e))
        rw [hko] at hr ⊢
        exact .inl (by simpa using (hrest c).2 ⟨hr, hc⟩)
      · simpa [hko] using h.holder hk
  waiter := by
    intro c m p hm hp
    obtain ⟨k, hk, hm⟩ := Table.get?_collect_eq_some.1 hm
    have hpk : p ∈ k.waiting := by
      by_cases hc : c ∈ given
      · rw [if_pos hc, Lock.next?_eq_some_iff] at hm
        simp [hm, hp]
      · rw [if_neg hc] at hm
        rwa [Option.some.inj hm]
    have hpc := h.waiter hk hpk
    have hpo : p ≠ o := by
      rintro rfl
      obtain ⟨k', hk', hko⟩ := hgiven c (hask c hpc)
      rw [hk] at hk'
      obtain rfl := Option.some.inj hk'
      exact (h.queue hk).1 (hko ▸ hpk)
    simpa [hpo] using hpc
  queue := by
    intro c m hm
    obtain ⟨k, hk, hm⟩ := Table.get?_collect_eq_some.1 hm
    by_cases hc : c ∈ given
    · rw [if_pos hc, Lock.next?_eq_some_iff] at hm
      have hnodup := (h.queue hk).2
      rw [hm, List.nodup_cons] at hnodup
      exact hnodup
    · rw [if_neg hc] at hm
      obtain rfl := Option.some.inj hm
      exact h.queue hk
  asked := by
    intro p c hp
    have hpo : p ≠ o := fun e => by simp [e] at hp
    rw [Function.update_of_ne hpo] at hp ⊢
    obtain ⟨hnot, m, hm, hmp⟩ := h.asked hp
    refine ⟨hnot, ?_⟩
    rw [Table.get?_collect, hm, Option.bind_some]
    by_cases hc : c ∈ given
    · obtain ⟨k, hk, hko⟩ := hgiven c hc
      rw [hm] at hk
      obtain rfl := Option.some.inj hk
      have hmem : p ∈ m.waiting := hmp.resolve_left fun e => hpo (e.symm.trans hko)
      rw [if_pos hc]
      cases hw : m.waiting with
      | nil => simp [hw] at hmem
      | cons q tail =>
          refine ⟨⟨q, tail⟩, Lock.next?_eq_some_iff.2 hw, ?_⟩
          rw [hw, List.mem_cons] at hmem
          exact hmem.imp_left Eq.symm
    · exact ⟨m, by rw [if_neg hc], hmp⟩
  once := by
    intro p
    by_cases hpo : p = o
    · subst hpo
      rwa [Function.update_self]
    · rw [Function.update_of_ne hpo]
      exact h.once p

/-- Giving back a lock that was given, without having locked the row. -/
theorem give_back (h : Locking locks rows awaits) (ha : awaits o = some a)
    (hl : locks.get? a = some l) (hh : l.holder = o) :
    Locking (locks.collect fun k m => if k = a then m.next? else some m) rows
      (update awaits o none) := by
  have hgiven : ∀ c ∈ [a], ∃ m, locks.get? c = some m ∧ m.holder = o := by
    intro c hc
    rw [List.mem_singleton.1 hc]
    exact ⟨l, hl, hh⟩
  have hrest : ∀ c, c ∈ rows o ↔ c ∈ rows o ∧ c ∉ [a] := fun c =>
    ⟨fun hc => ⟨hc, fun e => (h.asked ha).1 (List.mem_singleton.1 e ▸ hc)⟩, And.left⟩
  have hask : ∀ c, awaits o = some c → c ∈ [a] := by
    intro c hc
    rw [ha] at hc
    exact List.mem_singleton.2 (Option.some.inj hc).symm
  have key := h.hand_over hgiven hrest (h.once o) hask
  rw [Function.update_eq_self] at key
  simpa only [List.mem_singleton] using key

/-- Giving back all locked rows at once. -/
theorem give_back_all (h : Locking locks rows awaits) (ho : awaits o = none) :
    Locking (locks.collect fun k m => if k ∈ rows o then m.next? else some m) (update rows o [])
      awaits := by
  have hrest : ∀ c, c ∈ ([] : List Int) ↔ c ∈ rows o ∧ c ∉ rows o := by simp
  have hask : ∀ c, awaits o = some c → c ∈ rows o := by simp [ho]
  have key := h.hand_over (fun c hc => h.held hc) hrest List.nodup_nil hask
  rwa [← ho, Function.update_eq_self] at key

end Locking

end DoubleEntry
