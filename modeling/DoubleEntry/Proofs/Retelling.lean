import DoubleEntry.Proofs.Waiting
set_option autoImplicit false

/-! # Operations retold

A run can be retold with other numbers for its commands, and with some of the calls left out that
wait. `Retelling.bank` says what a bank looks like then. An operation of somebody who is not left
out is retold (`Retelling.Retells`): if those who are left out still wait afterwards, then they
waited before, and the operation comes to the same on the bank as it is told. That they wait
afterwards is what makes it so: a lock that is given to one of them would be given to another if
they were left out.
-/

namespace DoubleEntry

/-- **A way of retelling what happens at a desk:** the commands get other numbers, and some calls
that wait are left out. -/
structure Retelling where
  number : Nat → Nat
  injective : Function.Injective number
  omitted : List (Nat × Request)
  /-- Only single statements are left out. A transfer has done something before it waits. -/
  single : ∀ x ∈ omitted, ∀ run, x.2 ≠ .transfer run

/-- Looking a key up after the keys have been renamed. -/
theorem lookup_renamed {α β γ : Type} [DecidableEq α] [DecidableEq β] {f : α → β}
    (hf : Function.Injective f) (l : List (α × γ)) (k : α) :
    (l.map fun x => (f x.1, x.2)).lookup (f k) = l.lookup k := by
  induction l with
  | nil => rfl
  | cons x rest ih =>
      rw [List.map_cons, List.lookup_cons, List.lookup_cons, ih]
      have hkey : (f k == f x.1) = (k == x.1) := by simp [beq_eq_decide, hf.eq_iff]
      rw [hkey]

namespace Retelling

variable {t : Retelling} {b b' : Bank} {o p : Owner} {a : Int} {l m : Lock}

/-- What an owner is called. -/
def owner (t : Retelling) : Owner → Owner
  | .unit u => .unit u
  | .call n => .call (t.number n)

/-- Whether an owner is left out of the queue for a row. -/
def omits (t : Retelling) (a : Int) (o : Owner) : Bool :=
  t.omitted.any fun x => x.2.owner x.1 = o ∧ x.2.awaits? = some a

/-- A lock as it is told. -/
def lock (t : Retelling) (a : Int) (l : Lock) : Lock :=
  ⟨t.owner l.holder, (l.waiting.filter fun o => !t.omits a o).map t.owner⟩

/-- A bank as it is told. -/
def bank (t : Retelling) (b : Bank) : Bank :=
  { b with
    locks := b.locks.collect fun a l => some (t.lock a l)
    works := b.works.map fun x => (t.owner x.1, x.2) }

/-- Whoever is left out waits. -/
def Fits (t : Retelling) (b : Bank) : Prop :=
  ∀ a o, t.omits a o = true → ∃ l, b.locks.get? a = some l ∧ o ∈ l.waiting ∧ l.holder ≠ o

/-- An owner that is left out of no queue. -/
def Tells (t : Retelling) (o : Owner) : Prop := ∀ a, t.omits a o = false

/-- **An operation on a bank is retold** by another one on the bank as it is told: if those who are
left out wait afterwards, they waited before, and the answers are the same. -/
def Retells (t : Retelling) (b : Bank) {α : Type} (x y : α × Bank) : Prop :=
  t.Fits x.2 → t.Fits b ∧ y = (x.1, t.bank x.2)

theorem owner_injective (t : Retelling) : Function.Injective t.owner := by
  intro o p h
  cases o with
  | unit u =>
      cases p with
      | unit v => exact h
      | call n => cases h
  | call n =>
      cases p with
      | unit v => cases h
      | call m => rw [t.injective (Owner.call.inj h)]

@[simp] theorem owner_eq_iff : t.owner o = t.owner p ↔ o = p := t.owner_injective.eq_iff

theorem owner_owner (n : Nat) (r : Request) : t.owner (r.owner n) = r.owner (t.number n) := by
  cases r <;> rfl

/-! ## Locks -/

@[simp] theorem holder_lock (t : Retelling) (a : Int) (l : Lock) :
    (t.lock a l).holder = t.owner l.holder := rfl

theorem mem_waiting_lock (ho : t.omits a o = false) :
    t.owner o ∈ (t.lock a l).waiting ↔ o ∈ l.waiting := by
  constructor
  · intro h
    obtain ⟨p, hp, heq⟩ := List.mem_map.1 h
    rw [← t.owner_injective heq]
    exact (List.mem_filter.1 hp).1
  · exact fun h => List.mem_map.2 ⟨o, List.mem_filter.2 ⟨h, by simp [ho]⟩, rfl⟩

theorem lock_new (t : Retelling) (a : Int) (o : Owner) :
    t.lock a ⟨o, []⟩ = ⟨t.owner o, []⟩ := rfl

theorem lock_enqueue (ho : t.omits a o = false) :
    t.lock a (l.enqueue o) = (t.lock a l).enqueue (t.owner o) := by
  unfold Lock.enqueue
  by_cases hw : o ∈ l.waiting
  · rw [if_pos hw, if_pos ((mem_waiting_lock ho).2 hw)]
  · rw [if_neg hw, if_neg (mt (mem_waiting_lock ho).1 hw)]
    unfold lock
    rw [List.filter_append, List.filter_singleton, List.map_append]
    simp [ho]

theorem lock_leave (t : Retelling) (a : Int) (l : Lock) (o : Owner) :
    t.lock a (l.leave o) = (t.lock a l).leave (t.owner o) := by
  unfold lock Lock.leave
  dsimp only
  rw [List.filter_map, List.filter_filter, List.filter_filter]
  congr 2
  refine List.filter_congr fun p _ => ?_
  simp [Bool.and_comm]

/-- A lock goes to the same owner if that is not one who is left out. -/
theorem next?_lock (h : ∀ m, l.next? = some m → t.omits a m.holder = false) :
    (t.lock a l).next? = l.next?.map (t.lock a) := by
  obtain ⟨o, waiting⟩ := l
  cases waiting with
  | nil => rfl
  | cons p rest =>
      have hp : t.omits a p = false := h ⟨p, rest⟩ rfl
      unfold lock
      rw [List.filter_cons_of_pos (by simp [hp])]
      rfl

/-! ## Banks -/

@[simp] theorem accounts_bank (t : Retelling) (b : Bank) : (t.bank b).accounts = b.accounts := rfl

theorem get?_locks_bank (t : Retelling) (b : Bank) (a : Int) :
    (t.bank b).locks.get? a = (b.locks.get? a).map (t.lock a) := by
  unfold bank
  rw [Table.get?_collect]
  cases b.locks.get? a <;> rfl

@[simp] theorem work?_bank (t : Retelling) (b : Bank) (o : Owner) :
    (t.bank b).work? (t.owner o) = b.work? o := lookup_renamed t.owner_injective b.works o

@[simp] theorem work_bank (t : Retelling) (b : Bank) (o : Owner) :
    (t.bank b).work (t.owner o) = b.work o := by
  unfold Bank.work
  rw [work?_bank]

@[simp] theorem heldBy_bank (t : Retelling) (b : Bank) (o : Owner) :
    (t.bank b).heldBy (t.owner o) = b.heldBy o := by
  unfold Bank.heldBy
  rw [work_bank]

theorem isOpen_bank (t : Retelling) (b : Bank) (o : Owner) :
    (t.bank b).IsOpen (t.owner o) ↔ b.IsOpen o := by
  unfold Bank.IsOpen
  rw [work?_bank]

theorem bank_begin (t : Retelling) (b : Bank) (o : Owner) :
    t.bank (b.begin o) = (t.bank b).begin (t.owner o) := by
  unfold bank Bank.begin
  rw [List.map_append]
  rfl

theorem bank_modifyWork (t : Retelling) (b : Bank) (o : Owner) (f : Work → Work) :
    t.bank (b.modifyWork o f) = (t.bank b).modifyWork (t.owner o) f := by
  unfold bank Bank.modifyWork
  dsimp only
  rw [List.map_map, List.map_map]
  congr 1
  refine List.map_congr_left fun x _ => ?_
  by_cases hx : x.1 = o
  · simp [hx]
  · simp [hx]

theorem filter_works (t : Retelling) (works : List (Owner × Work)) (o : Owner) :
    (works.filter fun x => x.1 ≠ o).map (fun x => (t.owner x.1, x.2)) =
      (works.map fun x => (t.owner x.1, x.2)).filter fun x => x.1 ≠ t.owner o := by
  rw [List.filter_map]
  congr 1
  refine List.filter_congr fun x _ => ?_
  simp

/-- What waits before an operation that changes no lock waits after it, and the other way round. -/
theorem Fits.of_locks (h : t.Fits b') (hlocks : b'.locks = b.locks) : t.Fits b := by
  intro a o ho
  rw [← hlocks]
  exact h a o ho

/-- An operation that changes no lock. -/
theorem Retells.of_locks {α : Type} {x y : α × Bank} (hlocks : x.2.locks = b.locks)
    (hy : y = (x.1, t.bank x.2)) : t.Retells b x y :=
  fun h => ⟨h.of_locks hlocks, hy⟩

/-! ## Operations that change no lock -/

theorem pin_bank (t : Retelling) (b : Bank) (o : Owner) (kind : StagedKind) (a : Int) :
    (t.bank b).pin (t.owner o) kind a = ((b.pin o kind a).1, t.bank (b.pin o kind a).2) := by
  unfold Bank.pin
  rw [accounts_bank]
  by_cases ha : b.accounts.contains a = true
  · rw [if_pos ha, if_pos ha, bank_modifyWork]
    rfl
  · rw [if_neg ha, if_neg ha]

theorem createTransfer_bank (t : Retelling) (b : Bank) (o : Owner) (n : NewTransfer) :
    (t.bank b).createTransfer (t.owner o) n =
      ((b.createTransfer o n).1, t.bank (b.createTransfer o n).2) := by
  unfold Bank.createTransfer
  rw [pin_bank]
  obtain ⟨_ | _, b₁⟩ := b.pin o .transfer n.source
  · rfl
  · dsimp only
    rw [pin_bank]
    obtain ⟨_ | _, b₂⟩ := b₁.pin o .transfer n.target
    · rfl
    · dsimp only
      rw [bank_modifyWork]
      rfl

theorem createEntry_bank (t : Retelling) (b : Bank) (o : Owner) (n : NewEntry) :
    (t.bank b).createEntry (t.owner o) n =
      ((b.createEntry o n).1, t.bank (b.createEntry o n).2) := by
  unfold Bank.createEntry
  rw [pin_bank]
  obtain ⟨_ | _, b₁⟩ := b.pin o .entry n.account
  · rfl
  · dsimp only
    rw [bank_modifyWork]
    rfl

theorem adjust_bank (t : Retelling) (b : Bank) (a delta : Int) :
    (t.bank b).adjust a delta = ((b.adjust a delta).1, t.bank (b.adjust a delta).2) := by
  unfold Bank.adjust
  rw [accounts_bank]
  cases b.accounts.get? a with
  | none => rfl
  | some row =>
      dsimp only
      cases Amount.add? row.working.balance delta with
      | none => rfl
      | some balance =>
          dsimp only
          rw [show (t.bank b).checkBalance a balance = b.checkBalance a balance from rfl]
          cases b.checkBalance a balance <;> rfl

theorem bank_hold (t : Retelling) (b : Bank) (o : Owner) (a : Int) :
    t.bank (b.hold o a) = (t.bank b).hold (t.owner o) a := by
  unfold Bank.hold
  rw [accounts_bank]
  cases b.accounts.get? a with
  | none => rfl
  | some row => exact bank_modifyWork t b o _

theorem locks_createAccount (b : Bank) (n : NewAccount) :
    (b.createAccount n).2.locks = b.locks := by
  unfold Bank.createAccount
  dsimp only
  split <;> rfl

theorem createAccount_bank (t : Retelling) (b : Bank) (n : NewAccount) :
    (t.bank b).createAccount n = ((b.createAccount n).1, t.bank (b.createAccount n).2) := by
  unfold Bank.createAccount
  dsimp only
  rw [show ({ t.bank b with nextAccount := (t.bank b).nextAccount + 1 } : Bank) =
    t.bank { b with nextAccount := b.nextAccount + 1 } from rfl]
  generalize ({ b with nextAccount := b.nextAccount + 1 } : Bank) = b'
  rw [show (t.bank b').checkBalance (t.bank b).nextAccount n.balance =
    b'.checkBalance b.nextAccount n.balance from rfl]
  cases b'.checkBalance b.nextAccount n.balance <;> rfl

/-! ## Locks that are asked for and given back -/

/-- Rows of an owner that is told are given back. -/
theorem next_locks (ho : t.Tells o) {P : Int → Prop} [DecidablePred P]
    (hheld : ∀ k l, P k → b.locks.get? k = some l → l.holder = o)
    (hlocks : b'.locks = b.locks.collect fun k l => if P k then l.next? else some l)
    (hfits : t.Fits b') : t.Fits b ∧ (t.bank b').locks =
      (t.bank b).locks.collect fun k l => if P k then l.next? else some l := by
  have hget : ∀ k, b'.locks.get? k =
      (b.locks.get? k).bind fun l => if P k then l.next? else some l := fun k => by
    rw [hlocks, Table.get?_collect]
  refine ⟨fun k p hp => ?_, Table.ext fun k => ?_⟩
  · obtain ⟨m, hm, hw, hh⟩ := hfits k p hp
    rw [hget, Option.bind_eq_some_iff] at hm
    obtain ⟨l, hl, hm⟩ := hm
    by_cases hk : P k
    · rw [if_pos hk, Lock.next?_eq_some_iff] at hm
      refine ⟨l, hl, by rw [hm]; exact List.mem_cons_of_mem _ hw, fun e => ?_⟩
      -- The owner that has the lock is told, and so it is not the one who is left out.
      have hself := ho k
      rw [← hheld k l hk hl, e, hp] at hself
      cases hself
    · rw [if_neg hk] at hm
      obtain rfl := Option.some.inj hm
      exact ⟨l, hl, hw, hh⟩
  · rw [get?_locks_bank, hget, Table.get?_collect, get?_locks_bank]
    cases hl : b.locks.get? k with
    | none => rfl
    | some l =>
        rw [Option.bind_some, Option.map_some, Option.bind_some]
        by_cases hk : P k
        · rw [if_pos hk, if_pos hk, next?_lock]
          intro m hm
          by_contra hp
          rw [Bool.not_eq_false] at hp
          obtain ⟨m', hm', -, hh⟩ := hfits k m.holder hp
          rw [hget, hl, Option.bind_some, if_pos hk, hm] at hm'
          exact hh (congrArg Lock.holder (Option.some.inj hm').symm)
        · rw [if_neg hk, if_neg hk, Option.map_some]

theorem retells_release (ho : t.Tells o) (hs : ∀ l, b.locks.get? a = some l → l.holder = o)
    {α : Type} (answer : α) :
    t.Retells b (answer, b.release a) (answer, (t.bank b).release a) := by
  intro (hfits : t.Fits (b.release a))
  obtain ⟨hfits, hlocks⟩ := next_locks (b := b) (P := fun k => k = a) ho
    (fun k l hk hl => hs l (hk ▸ hl)) (by rw [Bank.release_eq]) hfits
  refine ⟨hfits, Prod.ext rfl ?_⟩
  dsimp only
  rw [Bank.release_eq (t.bank b), ← hlocks, Bank.release_eq]
  rfl

/-- A lock that is put in the place of another one, or where there was none. -/
theorem locks_insert (t : Retelling) (b : Bank) (a : Int) (l : Lock) :
    (t.bank b).locks.insert a (t.lock a l) =
      (t.bank { b with locks := b.locks.insert a l }).locks := by
  apply Table.ext
  intro k
  rw [get?_locks_bank, Table.get?_insert, Table.get?_insert, get?_locks_bank]
  by_cases hk : k = a
  · subst hk
    rw [if_pos rfl, if_pos rfl]
    rfl
  · rw [if_neg hk, if_neg hk]

/-- If whoever waits for the lock that was put there waited before, this is retold. -/
theorem retells_insert {α : Type} (answer : α)
    (hold : ∀ o, t.omits a o = true → o ∈ m.waiting → m.holder ≠ o →
      ∃ l, b.locks.get? a = some l ∧ o ∈ l.waiting ∧ l.holder ≠ o) :
    t.Retells b (answer, { b with locks := b.locks.insert a m })
      (answer, t.bank { b with locks := b.locks.insert a m }) := by
  refine fun hfits => ⟨fun k o ho => ?_, rfl⟩
  obtain ⟨l, hl, hw, hh⟩ := hfits k o ho
  rcases Table.get?_insert_eq_some.1 hl with ⟨rfl, rfl⟩ | ⟨-, hl⟩
  · exact hold o ho hw hh
  · exact ⟨l, hl, hw, hh⟩

theorem retells_acquire (ho : t.Tells o) (b : Bank) (a : Int) :
    t.Retells b (b.acquire o a) ((t.bank b).acquire (t.owner o) a) := by
  unfold Bank.acquire
  rw [accounts_bank, get?_locks_bank]
  cases hl : b.locks.get? a with
  | none =>
      by_cases ha : b.accounts.contains a = true
      · simp only [Option.map_none, if_pos ha]
        rw [← lock_new t a o, locks_insert]
        exact retells_insert _ fun p _ hp _ => absurd hp List.not_mem_nil
      · simp only [Option.map_none, if_neg ha]
        exact .of_locks rfl rfl
  | some l =>
      simp only [Option.map_some, holder_lock, owner_eq_iff, mem_waiting_lock (ho a)]
      by_cases hh : l.holder = o
      · rw [if_pos hh, if_pos hh]
        by_cases ha : b.accounts.contains a = true
        · rw [if_pos ha, if_pos ha]
          exact .of_locks rfl rfl
        · rw [if_neg ha, if_neg ha]
          exact retells_release ho (fun m hm => by rwa [← Option.some.inj (hl.symm.trans hm)]) _
      · rw [if_neg hh, if_neg hh]
        by_cases hw : o ∈ l.waiting
        · rw [if_pos hw, if_pos hw]
          exact .of_locks rfl rfl
        · rw [if_neg hw, if_neg hw]
          by_cases ha : b.accounts.contains a = true
          · rw [if_pos ha, if_pos ha, ← lock_enqueue (ho a), locks_insert]
            refine retells_insert _ fun p hp hmem hne => ?_
            refine ⟨l, hl, (Lock.mem_enqueue.1 hmem).resolve_right fun e => ?_, by simpa using hne⟩
            rw [e, ho a] at hp
            cases hp
          · rw [if_neg ha, if_neg ha]
            exact .of_locks rfl rfl

theorem retells_abandon (ho : t.Tells o) (b : Bank) (a : Int) {α : Type} (answer : α) :
    t.Retells b (answer, b.abandon o a) (answer, (t.bank b).abandon (t.owner o) a) := by
  unfold Bank.abandon
  rw [get?_locks_bank]
  cases hl : b.locks.get? a with
  | none => exact .of_locks rfl rfl
  | some l =>
      simp only [Option.map_some, holder_lock, owner_eq_iff]
      by_cases hh : l.holder = o
      · rw [if_pos hh, if_pos hh]
        exact retells_release ho (fun m hm => by rwa [← Option.some.inj (hl.symm.trans hm)]) _
      · rw [if_neg hh, if_neg hh, ← lock_leave, locks_insert]
        exact retells_insert _ fun p _ hmem hne => ⟨l, hl, (Lock.mem_leave.1 hmem).1, hne⟩

/-- The lock is the owner's when it is granted. -/
theorem holder_of_granted (h : (b.acquire o a).1 = .granted) :
    ∀ l, (b.acquire o a).2.locks.get? a = some l → l.holder = o := by
  rcases b.acquire_cases o a with ⟨-, -, heq⟩ | ⟨-, -, heq⟩ | ⟨l, hl, ⟨hh, -, heq⟩ | ⟨-, -, heq⟩ |
    ⟨-, -, heq⟩ | ⟨-, -, -, heq⟩ | ⟨-, -, -, heq⟩⟩
  · rw [heq]
    intro m hm
    rw [Table.get?_insert, if_pos rfl] at hm
    rw [← Option.some.inj hm]
  · rw [heq] at h; cases h
  · rw [heq]
    exact fun m hm => by rwa [← Option.some.inj (hl.symm.trans hm)]
  · rw [heq] at h; cases h
  · rw [heq] at h; cases h
  · rw [heq] at h; cases h
  · rw [heq] at h; cases h

/-- What is done once the lock of a row is granted. -/
theorem retells_granted (ho : t.Tells o) (b : Bank) (a : Int) {α : Type} {missing waiting : α}
    {granted granted' : Bank → α × Bank}
    (h : ∀ b', (∀ l, b'.locks.get? a = some l → l.holder = o) →
      t.Retells b' (granted b') (granted' (t.bank b'))) :
    t.Retells b
      (match b.acquire o a with
        | (.missing, b) => (missing, b)
        | (.waiting, b) => (waiting, b)
        | (.granted, b) => granted b)
      (match (t.bank b).acquire (t.owner o) a with
        | (.missing, b) => (missing, b)
        | (.waiting, b) => (waiting, b)
        | (.granted, b) => granted' b) := by
  have hacquire := retells_acquire ho b a
  have hholder := holder_of_granted (b := b) (o := o) (a := a)
  generalize b.acquire o a = x at hacquire hholder ⊢
  obtain ⟨_ | _ | _, b'⟩ := x
  · intro hfits
    obtain ⟨hfits, hgranted⟩ := h b' (hholder rfl) hfits
    obtain ⟨hfits, heq⟩ := hacquire hfits
    rw [heq]
    exact ⟨hfits, hgranted⟩
  · intro hfits
    obtain ⟨hfits, heq⟩ := hacquire hfits
    rw [heq]
    exact ⟨hfits, rfl⟩
  · intro hfits
    obtain ⟨hfits, heq⟩ := hacquire hfits
    rw [heq]
    exact ⟨hfits, rfl⟩

/-! ## Account statements and adjustments -/

theorem retells_addBalance (ho : t.Tells o) (b : Bank) (a delta : Int) :
    t.Retells b (b.addBalance o a delta) ((t.bank b).addBalance (t.owner o) a delta) := by
  unfold Bank.addBalance
  rw [work_bank]
  by_cases hheld : (b.work o).holds a = true
  · rw [if_pos hheld, if_pos hheld, adjust_bank]
    exact .of_locks (b.locks_adjust a delta) rfl
  · rw [if_neg hheld, if_neg hheld]
    refine retells_granted ho b a fun b' _ => .of_locks ?_ ?_
    · exact (Bank.locks_adjust _ a delta).trans (b'.locks_hold o a)
    · rw [← bank_hold, adjust_bank]

/-- A row is changed, and its lock is given back. -/
theorem retells_released (ho : t.Tells o) (hs : ∀ l, b.locks.get? a = some l → l.holder = o)
    {c : Bank} (hlocks : c.locks = b.locks) {α : Type} (answer : α) :
    t.Retells b (answer, c.release a) (answer, (t.bank c).release a) := by
  intro hfits
  obtain ⟨hfits, heq⟩ := retells_release ho (by rwa [hlocks]) answer hfits
  exact ⟨hfits.of_locks hlocks, heq⟩

theorem retells_updateAccount (ho : t.Tells o) (b : Bank) (a balance : Int) :
    t.Retells b (b.updateAccount o a balance) ((t.bank b).updateAccount (t.owner o) a balance) := by
  unfold Bank.updateAccount
  refine retells_granted ho b a fun b' hs => ?_
  rw [show (t.bank b').checkBalance a balance = b'.checkBalance a balance from rfl, accounts_bank]
  cases b'.checkBalance a balance with
  | error e => exact retells_released ho hs rfl _
  | ok _ =>
      cases b'.accounts.get? a with
      | none => exact retells_released ho hs rfl _
      | some row => exact retells_released ho hs (c := b'.modifyRow a _) rfl _

theorem retells_deleteAccount (ho : t.Tells o) (b : Bank) (a : Int) :
    t.Retells b (b.deleteAccount o a) ((t.bank b).deleteAccount (t.owner o) a) := by
  unfold Bank.deleteAccount
  refine retells_granted ho b a fun b' hs => ?_
  rw [show (t.bank b').isReferenced a = b'.isReferenced a from rfl, accounts_bank]
  cases b'.accounts.get? a with
  | none => exact retells_released ho hs rfl _
  | some row =>
      dsimp only
      by_cases hused : b'.isReferenced a = true ∨ 0 < row.pins
      · rw [if_pos hused, if_pos hused]
        exact retells_released ho hs rfl _
      · rw [if_neg hused, if_neg hused]
        exact retells_released ho hs (c := { b' with accounts := b'.accounts.erase a }) rfl _

/-! ## Units of work that end -/

section Ending

variable {awaits : Owner → Option Int}

theorem holder_of_held (h : b.Sound awaits) (k : Int) (l : Lock) (hk : k ∈ b.heldBy o)
    (hl : b.locks.get? k = some l) : l.holder = o := by
  obtain ⟨m, hm, hh⟩ := h.locking.held hk
  rwa [← Option.some.inj (hl.symm.trans hm)] at hh

theorem retells_commit (ho : t.Tells o) (h : b.Sound awaits) {α : Type} (answer : α) :
    t.Retells b (answer, b.commit o) (answer, (t.bank b).commit (t.owner o)) := by
  by_cases hopen : b.IsOpen o
  · have honce : (b.heldBy o).Nodup := h.locking.once o
    intro (hfits : t.Fits (b.commit o))
    obtain ⟨hfits, hlocks⟩ := next_locks (b := b) (P := fun k => k ∈ b.heldBy o) ho
      (holder_of_held h) (by rw [Bank.commit_eq hopen honce]) hfits
    refine ⟨hfits, Prod.ext rfl ?_⟩
    dsimp only
    rw [Bank.commit_eq ((t.isOpen_bank b o).2 hopen) (by rwa [heldBy_bank]), heldBy_bank, work_bank,
      ← hlocks, Bank.commit_eq hopen honce]
    unfold bank
    dsimp only
    rw [filter_works]
  · have hnone : b.work? o = none := by
      unfold Bank.IsOpen at hopen
      simpa using hopen
    unfold Bank.commit
    rw [work?_bank, hnone]
    exact .of_locks rfl rfl

theorem retells_rollback (ho : t.Tells o) (h : b.Sound awaits) {α : Type} (answer : α) :
    t.Retells b (answer, b.rollback o) (answer, (t.bank b).rollback (t.owner o)) := by
  have honce : (b.heldBy o).Nodup := h.locking.once o
  intro (hfits : t.Fits (b.rollback o))
  obtain ⟨hfits, hlocks⟩ := next_locks (b := b) (P := fun k => k ∈ b.heldBy o) ho
    (holder_of_held h) (by rw [Bank.rollback_eq honce]) hfits
  refine ⟨hfits, Prod.ext rfl ?_⟩
  dsimp only
  rw [Bank.rollback_eq (by rwa [heldBy_bank]), heldBy_bank, work_bank, ← hlocks,
    Bank.rollback_eq honce]
  unfold bank
  dsimp only
  rw [filter_works]

end Ending

/-! ## Calls -/

section Calls

variable {spent : Spent} {b₀ : Bank} {awaits : Owner → Option Int} {n : NewTransfer} {run : Run}
  {number : Nat} {r : Request}

theorem retells_perform (ho : t.Tells o) (h : b.Sound awaits) (c : Call) :
    t.Retells b ((Bank.store o).perform c b) ((Bank.store (t.owner o)).perform c (t.bank b)) := by
  cases c with
  | begin => exact .of_locks rfl (congrArg (Prod.mk _) (bank_begin t b o).symm)
  | createTransfer n =>
      refine .of_locks (b.locks_createTransfer o n) ?_
      unfold Bank.store
      dsimp only
      rw [createTransfer_bank]
  | createEntry n =>
      refine .of_locks (b.locks_createEntry o n) ?_
      unfold Bank.store
      dsimp only
      rw [createEntry_bank]
  | addBalance a delta => exact retells_addBalance ho b a delta
  | commit => exact retells_commit ho h _
  | rollback => exact retells_rollback ho h _

theorem retells_refuse (ho : t.Tells o) (h : b.Sound awaits) (c : Call) {α : Type} (answer : α) :
    t.Retells b (answer, (Bank.store o).refuse c b)
      (answer, (Bank.store (t.owner o)).refuse c (t.bank b)) := by
  cases c with
  | commit => exact retells_rollback ho h _
  | rollback => exact retells_rollback ho h _
  | _ => exact .of_locks rfl rfl

theorem retells_answer (ho : t.Tells o) (h : b.Sound awaits) (run : Run) :
    t.Retells b ((Bank.store o).answer run b)
      ((Bank.store (t.owner o)).answer run (t.bank b)) := by
  unfold Store.answer
  cases faultOf? run.faults run.answered run.call with
  | none => exact retells_perform ho h run.call
  | some e => exact retells_refuse ho h run.call _

/-- **A transfer is retold call by call.** -/
theorem retells_runFor (ho : t.Tells o) (fuel : Nat) (h : b₀.InFlight spent awaits o n run b) :
    t.Retells b ((Bank.store o).runFor fuel run b)
      ((Bank.store (t.owner o)).runFor fuel run (t.bank b)) := by
  induction fuel generalizing run b with
  | zero => exact .of_locks rfl rfl
  | succ fuel ih =>
      have hsound : ∃ awaits', b.Sound awaits' :=
        h.sound.elim (fun hs => ⟨_, hs⟩) fun ⟨_, _, hs, _⟩ => ⟨_, hs⟩
      have hanswer := retells_answer ho hsound.choose_spec run
      have hleads : b₀.Proceeds spent awaits o n run b := h.leads
      unfold Bank.Proceeds at hleads
      unfold Store.runFor
      generalize (Bank.store o).answer run b = x at hanswer hleads ⊢
      obtain ⟨_ | answer, b'⟩ := x
      · intro hfits
        obtain ⟨hfits, heq⟩ := hanswer hfits
        rw [heq]
        exact ⟨hfits, rfl⟩
      · unfold Store.Leads at hleads
        dsimp only at hleads ⊢
        cases hs : run.stage.resume run.request answer with
        | inl stage =>
            rw [hs] at hleads
            intro hfits
            obtain ⟨hfits, hrest⟩ := ih hleads hfits
            obtain ⟨hfits, heq⟩ := hanswer hfits
            rw [heq]
            dsimp only
            rw [hs]
            exact ⟨hfits, hrest⟩
        | inr outcome =>
            intro hfits
            obtain ⟨hfits, heq⟩ := hanswer hfits
            rw [heq]
            dsimp only
            rw [hs]
            exact ⟨hfits, rfl⟩

/-- **A call is retold** when it is carried as far as it gets. -/
theorem proceed_bank (ho : t.Tells (r.owner number))
    (h : b.CanProceed spent awaits number r) (hfits : t.Fits (r.proceed number b).2.2) :
    t.Fits b ∧ r.proceed (t.number number) (t.bank b) =
      ((r.proceed number b).1, (r.proceed number b).2.1, t.bank (r.proceed number b).2.2) := by
  -- A single statement is one operation.
  have single : ∀ {α : Type} (value : α → Value) {x y : Option (Except LedgerError α) × Bank},
      t.Retells b x y → t.Fits x.2 → t.Fits b ∧
        (y.1.map (Reply.of value), r, y.2) = (x.1.map (Reply.of value), r, t.bank x.2) := by
    intro α value x y hx hfits
    obtain ⟨hfits, rfl⟩ := hx hfits
    exact ⟨hfits, rfl⟩
  cases r with
  | addBalance unit account delta => exact single .account (retells_addBalance ho b _ _) hfits
  | updateAccount account balance =>
      exact single .optionalAccount (retells_updateAccount ho b _ _) hfits
  | deleteAccount account => exact single .flag (retells_deleteAccount ho b _) hfits
  | transfer run =>
      have hrun := retells_runFor (o := .call number) ho run.stage.remaining h
      have hends := Bank.InFlight.run h
      unfold Request.proceed Store.run at hfits ⊢
      unfold Store.run at hends
      dsimp only at hfits ⊢
      rw [show Owner.call (t.number number) = t.owner (.call number) from rfl]
      generalize (Bank.store (.call number)).runFor run.stage.remaining run b = x
        at hrun hends hfits ⊢
      obtain ⟨run' | ⟨outcome, made⟩, b'⟩ := x
      · obtain ⟨hfits, heq⟩ := hrun hfits
        rw [heq]
        exact ⟨hfits, rfl⟩
      · -- What is left of the unit of work is dropped.
        obtain ⟨hfits, hback⟩ := retells_rollback (o := .call number) ho hends.sound () hfits
        obtain ⟨hfits, heq⟩ := hrun hfits
        rw [heq]
        refine ⟨hfits, ?_⟩
        dsimp only
        rw [(Prod.mk.inj hback).2]

end Calls

end Retelling

end DoubleEntry
