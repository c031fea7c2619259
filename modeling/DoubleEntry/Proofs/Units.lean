import DoubleEntry.Bank.Work
import Mathlib.Tactic
set_option autoImplicit false

/-! # What the operations of a bank do, in closed form

A bank is read through four views: the open unit of work of each owner (`Bank.work`), the rows that
it has locked (`Bank.heldBy`), the accounts that all open units of work have pinned (`Bank.pinned`)
and the tables. For each operation this module says which views it changes and what they are then;
the loops over locked rows and pins become one change of all rows at once (`Table.collect`).
-/

namespace DoubleEntry

/-- The accounts whose rows a unit of work has locked. -/
def Work.locked (w : Work) : List Int := w.held.map Hold.account

theorem Work.holds_iff {w : Work} {a : Int} : w.holds a = true ↔ a ∈ w.locked := by
  simp [Work.holds, Work.locked]

/-- A working copy with the balance that it had when the row was locked. -/
def Hold.restored (held : List Hold) (a : Int) (working : Account) : Account :=
  match held.find? fun h => h.account = a with
  | some h => { working with balance := h.prior }
  | none => working

theorem Hold.find?_of_mem {held : List Hold} (hn : (held.map Hold.account).Nodup) {h : Hold}
    (hm : h ∈ held) : (held.find? fun g => g.account = h.account) = some h := by
  induction held with
  | nil => cases hm
  | cons g rest ih =>
      rw [List.map_cons, List.nodup_cons] at hn
      rcases List.mem_cons.1 hm with rfl | hm
      · simp
      · have hne : ¬ g.account = h.account :=
          fun e => hn.1 (List.mem_map.2 ⟨h, hm, e.symm⟩)
        simp only [List.find?_cons, hne, decide_false]
        exact ih hn.2 hm

namespace Bank

/-- Whether an owner has an open unit of work. -/
def IsOpen (b : Bank) (o : Owner) : Prop := (b.work? o).isSome

instance (b : Bank) (o : Owner) : Decidable (b.IsOpen o) := inferInstanceAs (Decidable (_ = true))

/-- The accounts whose rows an owner has locked. -/
def heldBy (b : Bank) (o : Owner) : List Int := (b.work o).locked

/-- The accounts that open units of work have pinned, once for each pin. -/
def pinned (b : Bank) : List Int := b.works.flatMap fun x => x.2.pinned

theorem work_of_work? {b : Bank} {o : Owner} {w : Work} (h : b.work? o = some w) :
    b.work o = w := by
  simp [work, h]

theorem work?_of_isOpen {b : Bank} {o : Owner} (h : b.IsOpen o) : b.work? o = some (b.work o) := by
  obtain ⟨w, hw⟩ := Option.isSome_iff_exists.1 h
  rw [hw, work_of_work? hw]

theorem work_of_not_isOpen {b : Bank} {o : Owner} (h : ¬ b.IsOpen o) : b.work o = {} := by
  have hnone : b.work? o = none := by simpa [IsOpen] using h
  simp [work, hnone]

theorem heldBy_of_not_isOpen {b : Bank} {o : Owner} (h : ¬ b.IsOpen o) : b.heldBy o = [] := by
  unfold heldBy
  rw [work_of_not_isOpen h]
  rfl

/-- Rows are locked in open units of work. -/
theorem isOpen_of_mem_heldBy {b : Bank} {o : Owner} {a : Int} (ha : a ∈ b.heldBy o) :
    b.IsOpen o := by
  by_contra ho
  rw [heldBy_of_not_isOpen ho] at ha
  cases ha

/-! ## Units of work -/

theorem lookup_cons_eq (x : Owner × Work) (l : List (Owner × Work)) (p : Owner) :
    (x :: l).lookup p = if p = x.1 then some x.2 else l.lookup p := by
  rw [List.lookup_cons]
  by_cases h : p = x.1
  · simp [h]
  · have hbeq : (p == x.1) = false := by simpa using h
    simp [h, hbeq]

theorem work?_begin (b : Bank) (o p : Owner) :
    (b.begin o).work? p = (b.work? p).or (if p = o then some {} else none) := by
  unfold work? begin
  rw [List.lookup_append, lookup_cons_eq]
  rfl

theorem work?_begin_self {b : Bank} {o : Owner} (h : ¬ b.IsOpen o) :
    (b.begin o).work? o = some {} := by
  have hnone : b.work? o = none := by simpa [IsOpen] using h
  simp [work?_begin, hnone]

theorem work?_begin_of_ne (b : Bank) {o p : Owner} (h : p ≠ o) :
    (b.begin o).work? p = b.work? p := by
  simp [work?_begin, h]

/-- A unit of work is empty when it is opened. -/
theorem work_begin (b : Bank) (o : Owner) : (b.begin o).work = b.work := by
  funext p
  unfold work
  rw [work?_begin]
  cases b.work? p with
  | some w => rfl
  | none => by_cases h : p = o <;> simp [h]

theorem lookup_map_update (l : List (Owner × Work)) (o p : Owner) (f : Work → Work) :
    (l.map fun x => if x.1 = o then (o, f x.2) else x).lookup p =
      if p = o then (l.lookup o).map f else l.lookup p := by
  induction l with
  | nil => simp
  | cons x rest ih =>
      rw [List.map_cons, lookup_cons_eq, lookup_cons_eq, lookup_cons_eq, ih]
      by_cases hx : x.1 = o
      · by_cases hp : p = o <;> simp [hx, hp]
      · by_cases hp : p = o
        · simp [hx, hp, Ne.symm hx]
        · simp [hx, hp]

theorem work?_modifyWork (b : Bank) (o p : Owner) (f : Work → Work) :
    (b.modifyWork o f).work? p = if p = o then (b.work? o).map f else b.work? p :=
  lookup_map_update b.works o p f

theorem work?_modifyWork_of_ne (b : Bank) {o p : Owner} (f : Work → Work) (h : p ≠ o) :
    (b.modifyWork o f).work? p = b.work? p := by
  simp [work?_modifyWork, h]

@[simp] theorem isOpen_modifyWork (b : Bank) (o p : Owner) (f : Work → Work) :
    (b.modifyWork o f).IsOpen p ↔ b.IsOpen p := by
  unfold IsOpen
  rw [work?_modifyWork]
  by_cases h : p = o <;> simp [h]

theorem work_modifyWork {b : Bank} {o : Owner} (h : b.IsOpen o) (f : Work → Work) :
    (b.modifyWork o f).work = Function.update b.work o (f (b.work o)) := by
  funext p
  by_cases hp : p = o
  · subst hp
    rw [Function.update_self]
    unfold work
    rw [work?_modifyWork, if_pos rfl, work?_of_isOpen h]
    rfl
  · rw [Function.update_of_ne hp]
    unfold work
    rw [work?_modifyWork_of_ne b f hp]

theorem lookup_filter_ne (l : List (Owner × Work)) (o p : Owner) :
    (l.filter fun x => x.1 ≠ o).lookup p = if p = o then none else l.lookup p := by
  induction l with
  | nil => simp
  | cons x rest ih =>
      rw [lookup_cons_eq]
      by_cases hx : x.1 = o
      · rw [List.filter_cons_of_neg (by simpa using hx), ih]
        by_cases hp : p = o <;> simp [hx, hp]
      · rw [List.filter_cons_of_pos (by simpa using hx), lookup_cons_eq, ih]
        by_cases hp : p = o
        · simp [hp, Ne.symm hx]
        · simp [hp]

theorem work?_closeWork (b : Bank) (o p : Owner) :
    (b.closeWork o).work? p = if p = o then none else b.work? p :=
  lookup_filter_ne b.works o p

theorem work_closeWork (b : Bank) (o : Owner) :
    (b.closeWork o).work = Function.update b.work o {} := by
  funext p
  unfold work
  rw [work?_closeWork]
  by_cases hp : p = o
  · subst hp
    simp
  · rw [Function.update_of_ne hp, if_neg hp]

theorem isOpen_iff_mem_keys (b : Bank) (o : Owner) :
    b.IsOpen o ↔ o ∈ b.works.map Prod.fst := by
  simp [IsOpen, work?, List.lookup_isSome_iff]

theorem filter_works_of_not_isOpen {b : Bank} {o : Owner} (h : ¬ b.IsOpen o) :
    (b.works.filter fun x => x.1 ≠ o) = b.works := by
  refine List.filter_eq_self.2 fun x hx => ?_
  have hne : x.1 ≠ o := fun e =>
    h ((isOpen_iff_mem_keys b o).2 (List.mem_map.2 ⟨x, hx, e⟩))
  simpa using hne

/-- An open unit of work stands at one place among the open units of work, and changing or closing
it touches that place alone. -/
theorem works_split {b : Bank} {o : Owner} {w : Work} (hn : (b.works.map Prod.fst).Nodup)
    (h : b.work? o = some w) :
    ∃ l r, b.works = l ++ (o, w) :: r ∧
      (∀ f, (b.modifyWork o f).works = l ++ (o, f w) :: r) ∧ (b.closeWork o).works = l ++ r := by
  obtain ⟨l, r, hw, hl⟩ := List.lookup_eq_some_iff.1 h
  have hl : ∀ x ∈ l, x.1 ≠ o := fun x hx e => by simpa [e] using hl x hx
  have hr : ∀ x ∈ r, x.1 ≠ o := by
    rw [hw, List.map_append, List.map_cons, List.nodup_append, List.nodup_cons] at hn
    intro x hx e
    exact hn.2.1.1 (List.mem_map.2 ⟨x, hx, e⟩)
  have hmap : ∀ (f : Work → Work) (m : List (Owner × Work)), (∀ x ∈ m, x.1 ≠ o) →
      (m.map fun x => if x.1 = o then (o, f x.2) else x) = m := by
    intro f m hm
    conv_rhs => rw [← List.map_id m]
    exact List.map_congr_left fun x hx => by simp [hm x hx]
  have hfilter : ∀ m : List (Owner × Work), (∀ x ∈ m, x.1 ≠ o) →
      (m.filter fun x => x.1 ≠ o) = m :=
    fun m hm => List.filter_eq_self.2 fun x hx => by simpa using hm x hx
  refine ⟨l, r, hw, fun f => ?_, ?_⟩
  · unfold modifyWork
    simp only [hw, List.map_append, List.map_cons, if_true]
    rw [hmap f l hl, hmap f r hr]
  · unfold closeWork
    simp only [hw, List.filter_append]
    rw [hfilter l hl, List.filter_cons_of_neg (by simp), hfilter r hr]

/-! ## The other fields -/

@[simp] theorem accounts_modifyWork (b : Bank) (o : Owner) (f : Work → Work) :
    (b.modifyWork o f).accounts = b.accounts := rfl

@[simp] theorem accounts_modifyRow (b : Bank) (a : Int) (g : Row → Row) :
    (b.modifyRow a g).accounts = b.accounts.modify a g := rfl

@[simp] theorem work_modifyRow (b : Bank) (a : Int) (g : Row → Row) :
    (b.modifyRow a g).work = b.work := rfl

/-! ## Loops over rows -/

theorem eq_with_accounts {b : Bank} {t : Table Row} (h : b.accounts = t) :
    b = { b with accounts := t } := by
  rw [← h]

theorem eq_with_locks {b : Bank} {t : Table Lock} (h : b.locks = t) :
    b = { b with locks := t } := by
  rw [← h]

theorem unpinAll_eq (b : Bank) (l : List Int) :
    b.unpinAll l = { b with
      accounts := b.accounts.collect fun a r => some { r with pins := r.pins - l.count a } } := by
  induction l generalizing b with
  | nil => exact eq_with_accounts (Table.collect_eq_self (by simp)).symm
  | cons x rest ih =>
      have hstep : b.unpinAll (x :: rest) = (b.unpin x).unpinAll rest := rfl
      rw [hstep, ih]
      unfold unpin modifyRow
      rw [Table.collect_modify]
      congr 2
      funext a r
      by_cases ha : a = x
      · subst ha
        rw [if_pos rfl, List.count_cons_self]
        have hpins : r.pins - 1 - rest.count a = r.pins - (rest.count a + 1) := by omega
        rw [hpins]
      · rw [if_neg ha, List.count_cons_of_ne (Ne.symm ha)]

theorem publish_eq (b : Bank) (held : List Hold) :
    b.publish held = { b with
      accounts := b.accounts.collect fun a r =>
        some (if a ∈ held.map Hold.account then { r with committed := r.working } else r) } := by
  induction held generalizing b with
  | nil => exact eq_with_accounts (Table.collect_eq_self (by simp)).symm
  | cons h rest ih =>
      have hstep : b.publish (h :: rest) =
          (b.modifyRow h.account fun r => { r with committed := r.working }).publish rest := rfl
      rw [hstep, ih]
      unfold modifyRow
      rw [Table.collect_modify]
      congr 2
      funext a r
      by_cases ha : a = h.account
      · simp [ha]
      · simp [ha]

theorem restore_eq (b : Bank) {held : List Hold} (hn : (held.map Hold.account).Nodup) :
    b.restore held = { b with
      accounts := b.accounts.collect fun a r =>
        some { r with working := Hold.restored held a r.working } } := by
  induction held generalizing b with
  | nil => exact eq_with_accounts (Table.collect_eq_self (by simp [Hold.restored])).symm
  | cons h rest ih =>
      rw [List.map_cons, List.nodup_cons] at hn
      have hstep : b.restore (h :: rest) = (b.modifyRow h.account fun r =>
          { r with working := { r.working with balance := h.prior } }).restore rest := rfl
      rw [hstep, ih _ hn.2]
      unfold modifyRow
      rw [Table.collect_modify]
      congr 2
      funext a r
      by_cases ha : a = h.account
      · -- The row is not locked a second time, so nothing later overwrites its balance.
        have hnone : (rest.find? fun g => g.account = h.account) = none := by
          rw [List.find?_eq_none]
          intro g hg e
          exact hn.1 (List.mem_map.2 ⟨g, hg, of_decide_eq_true e⟩)
        simp [Hold.restored, ha, hnone]
      · simp [Hold.restored, ha, Ne.symm ha]

theorem release_eq (b : Bank) (a : Int) :
    b.release a = { b with
      locks := b.locks.collect fun k l => if k = a then l.next? else some l } := by
  unfold release
  cases h : b.locks.get? a with
  | none =>
      refine eq_with_locks (Table.collect_eq_self fun {k l} hk => if_neg fun e => ?_).symm
      rw [e, h] at hk
      cases hk
  | some l =>
      dsimp only
      cases hl : l.next? <;> (
        refine eq_with_locks (Table.ext fun k => ?_)
        rw [Table.get?_collect]
        by_cases hk : k = a
        · subst hk
          simp [h, hl]
        · cases hb : b.locks.get? k <;> simp [hk, hb])

theorem releaseAll_eq (b : Bank) {held : List Hold} (hn : (held.map Hold.account).Nodup) :
    b.releaseAll held = { b with
      locks := b.locks.collect fun k l =>
        if k ∈ held.map Hold.account then l.next? else some l } := by
  induction held generalizing b with
  | nil => exact eq_with_locks (Table.collect_eq_self (by simp)).symm
  | cons h rest ih =>
      rw [List.map_cons, List.nodup_cons] at hn
      have hstep : b.releaseAll (h :: rest) = (b.release h.account).releaseAll rest := rfl
      rw [hstep, ih _ hn.2, release_eq]
      congr 1
      apply Table.ext
      intro k
      simp only [Table.get?_collect]
      cases b.locks.get? k with
      | none => rfl
      | some l =>
          by_cases hk : k = h.account
          · subst hk
            cases l.next? <;> simp [hn.1]
          · simp [hk]

/-! ## Ending a unit of work -/

/-- A commit publishes the working copies of the locked rows and what was staged, and gives back the
locks and the pins. -/
theorem commit_eq {b : Bank} {o : Owner} (ho : b.IsOpen o) (hn : (b.heldBy o).Nodup) :
    b.commit o = { b with
      transfers := (b.work o).transfers.foldl (fun t x => t.insert x.id x) b.transfers
      entries := (b.work o).entries.foldl (fun t x => t.insert x.id x) b.entries
      accounts := b.accounts.collect fun a r => some
        { committed := if a ∈ b.heldBy o then r.working else r.committed
          working := r.working
          pins := r.pins - (b.work o).pinned.count a }
      locks := b.locks.collect fun a l => if a ∈ b.heldBy o then l.next? else some l
      works := b.works.filter fun x => x.1 ≠ o } := by
  unfold commit
  rw [work?_of_isOpen ho]
  dsimp only
  rw [releaseAll_eq _ hn, unpinAll_eq, publish_eq]
  unfold closeWork insertStaged heldBy Work.locked
  congr 1
  apply Table.ext
  intro a
  simp only [Table.get?_collect]
  cases b.accounts.get? a with
  | none => rfl
  | some r =>
      by_cases ha : a ∈ (b.work o).held.map Hold.account <;> simp [ha]

theorem rollback_of_not_isOpen {b : Bank} {o : Owner} (h : ¬ b.IsOpen o) : b.rollback o = b := by
  unfold rollback
  rw [show b.work? o = none by simpa [IsOpen] using h]

/-- A rollback gives the locked rows back the balances that they had, and gives back the locks and
the pins. -/
theorem rollback_eq {b : Bank} {o : Owner} (hn : (b.heldBy o).Nodup) :
    b.rollback o = { b with
      accounts := b.accounts.collect fun a r => some
        { r with
          working := Hold.restored (b.work o).held a r.working
          pins := r.pins - (b.work o).pinned.count a }
      locks := b.locks.collect fun a l => if a ∈ b.heldBy o then l.next? else some l
      works := b.works.filter fun x => x.1 ≠ o } := by
  by_cases ho : b.IsOpen o
  · unfold rollback
    rw [work?_of_isOpen ho]
    dsimp only
    rw [unpinAll_eq, releaseAll_eq _ hn, restore_eq _ hn]
    unfold closeWork heldBy Work.locked
    congr 1
    apply Table.ext
    intro a
    simp only [Table.get?_collect]
    cases b.accounts.get? a <;> simp
  · -- Without an open unit of work there is nothing to give back.
    have haccounts : (b.accounts.collect fun a r => some
        { r with
          working := Hold.restored (b.work o).held a r.working
          pins := r.pins - (b.work o).pinned.count a }) = b.accounts := by
      rw [work_of_not_isOpen ho]
      exact Table.collect_eq_self (by simp [Hold.restored])
    have hlocks : (b.locks.collect fun a l => if a ∈ b.heldBy o then l.next? else some l) =
        b.locks := by
      rw [heldBy_of_not_isOpen ho]
      exact Table.collect_eq_self (by simp)
    rw [rollback_of_not_isOpen ho, filter_works_of_not_isOpen ho, haccounts, hlocks]

end Bank

end DoubleEntry
