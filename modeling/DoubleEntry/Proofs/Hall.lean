import DoubleEntry.Proofs.Exchanges
import DoubleEntry.Proofs.Proceeding
set_option autoImplicit false

/-! # A bank, call by call

At a desk a transfer makes its calls in one go until it has to wait. The bank itself serves one call
at a time, and between two calls of one unit of work anything may happen in the others. A `Hall` is
a bank together with the row that each owner waits for and with what each open unit of work was
answered so far; a `Move` is anything that can happen to it. Every move keeps a hall sound
(`Hall.Sound.after`), so that what is derived from soundness holds in whatever order calls, account
statements, cancellations, rollbacks and drops follow each other.
-/

namespace DoubleEntry

open Function (update update_self update_of_ne update_eq_self)

/-- The account whose row a call may have to wait for. -/
def Call.row? : Call → Option Int
  | .addBalance account _ => some account
  | _ => none

/-- What a call that was answered adds to the deeds of its unit of work. -/
def Exchange.deeds : Exchange → List Deed
  | ⟨.createTransfer _, answer⟩ => Deed.noted .transfer answer
  | ⟨.createEntry _, answer⟩ => Deed.noted .entry answer
  | ⟨.addBalance account delta, answer⟩ => Deed.noted (.adjustment account delta) answer
  | ⟨.begin, _⟩ | ⟨.commit, _⟩ | ⟨.rollback, _⟩ => []

/-- A bank with what its owners wait for, and the answers that each open unit of work got. -/
structure Hall where
  bank : Bank
  awaits : Owner → Option Int := fun _ => none
  log : Owner → List Exchange := fun _ => []

/-- Something that happens to a bank. -/
inductive Move where
  /-- A call is made in a unit of work, or made again because it had to wait. -/
  | call (o : Owner) (c : Call)
  /-- An owner stops waiting. -/
  | leave (o : Owner)
  /-- A unit of work is dropped, in the middle of a call or between two. -/
  | drop (o : Owner)
  | createAccount (n : NewAccount)
  | updateAccount (number : Nat) (account balance : Int)
  | deleteAccount (number : Nat) (account : Int)
  /-- Time passes. -/
  | tick (now : Timestamp)
  deriving DecidableEq, Repr

namespace Hall

/-- A bank without accounts. -/
def opening (nonNegative : Bool) : Hall := { bank := .empty nonNegative }

/-- What an open unit of work has done so far. -/
def deeds (h : Hall) (o : Owner) : List Deed := (h.log o).flatMap Exchange.deeds

/-- Calls are made in open units of work, one at a time; only one that waits is made again. -/
def MayCall (h : Hall) (o : Owner) (c : Call) : Prop :=
  (h.bank.IsOpen o ↔ c ≠ .begin) ∧ (h.awaits o = none ∨ h.awaits o = c.row?)

/-- An account statement has no unit of work. -/
def MayState (h : Hall) (number : Nat) (account : Int) : Prop :=
  ¬ h.bank.IsOpen (.call number) ∧
    (h.awaits (.call number) = none ∨ h.awaits (.call number) = some account)

instance (h : Hall) (o : Owner) (c : Call) : Decidable (h.MayCall o c) :=
  inferInstanceAs (Decidable (_ ∧ _))

instance (h : Hall) (number : Nat) (account : Int) : Decidable (h.MayState number account) :=
  inferInstanceAs (Decidable (_ ∧ _))

/-- Makes a call. What it is answered is noted as long as the unit of work is open. -/
def call (h : Hall) (o : Owner) (c : Call) : Hall :=
  let (answer, bank) := (Bank.store o).perform c h.bank
  { bank
    awaits := update h.awaits o (if answer.isNone then c.row? else none)
    log := update h.log o
      (if bank.IsOpen o then h.log o ++ answer.toList.map (Exchange.mk c) else []) }

/-- What follows when an account statement got an answer, or has to wait. -/
def state {α : Type} (h : Hall) (number : Nat) (account : Int) (r : Option α × Bank) : Hall :=
  { h with
    bank := r.2
    awaits := update h.awaits (.call number) (if r.1.isNone then some account else none) }

/-- An owner stops waiting, if it waits. -/
def leave (h : Hall) (o : Owner) : Hall :=
  match h.awaits o with
  | none => h
  | some a => { h with bank := h.bank.abandon o a, awaits := update h.awaits o none }

/-- A unit of work is dropped. -/
def drop (h : Hall) (o : Owner) : Hall :=
  { h.leave o with bank := (h.leave o).bank.rollback o, log := update h.log o [] }

/-- The hall after a move. A call or a statement that cannot be made does not happen. -/
def after (h : Hall) : Move → Hall
  | .call o c => if h.MayCall o c then h.call o c else h
  | .leave o => h.leave o
  | .drop o => h.drop o
  | .createAccount n => { h with bank := (h.bank.createAccount n).2 }
  | .updateAccount number account balance =>
      if h.MayState number account then
        h.state number account (h.bank.updateAccount (.call number) account balance)
      else h
  | .deleteAccount number account =>
      if h.MayState number account then
        h.state number account (h.bank.deleteAccount (.call number) account)
      else h
  | .tick now => { h with bank := { h.bank with clock := now } }

/-- The hall after some moves, one after the other. -/
def afterAll (h : Hall) (ms : List Move) : Hall := ms.foldl after h

/-- **A sound hall.** Each open unit of work amounts to what it was answered. -/
structure Sound (h : Hall) : Prop where
  bank : h.bank.Sound h.awaits
  fresh : h.bank.Fresh {}
  reflects : ∀ {o}, h.bank.IsOpen o → h.bank.Reflects o (h.deeds o)
  closed : ∀ {o}, ¬ h.bank.IsOpen o → h.log o = []

namespace Sound

variable {h : Hall} {o : Owner} {a : Int} {b : Bank}

/-- What one owner does leaves the hall sound if the others do not notice it. -/
theorem act (h₀ : h.Sound) {awaits : Owner → Option Int} {xs : List Exchange}
    (hs : b.Sound awaits) (hf : b.Fresh {}) (hk : ∀ {p}, p ≠ o → h.bank.Keeps p b)
    (hr : b.IsOpen o → b.Reflects o (xs.flatMap Exchange.deeds))
    (hc : ¬ b.IsOpen o → xs = []) : (Hall.mk b awaits (update h.log o xs)).Sound where
  bank := hs
  fresh := hf
  reflects := by
    intro p hp
    unfold deeds
    dsimp only
    by_cases hpo : p = o
    · subst hpo
      rw [update_self]
      exact hr hp
    · rw [update_of_ne hpo]
      exact (h₀.reflects ((hk hpo).isOpen.1 hp)).of_keeps (hk hpo) hs.anchored
  closed := by
    intro p hp
    dsimp only
    by_cases hpo : p = o
    · subst hpo
      rw [update_self]
      exact hc hp
    · rw [update_of_ne hpo]
      exact h₀.closed fun ho => hp ((hk hpo).isOpen.2 ho)

/-- What leaves every unit of work alone leaves the hall sound. -/
theorem with_bank (h₀ : h.Sound) {awaits : Owner → Option Int} (hs : b.Sound awaits)
    (hf : b.Fresh {}) (hk : ∀ p, h.bank.Keeps p b) :
    ({ h with bank := b, awaits } : Hall).Sound where
  bank := hs
  fresh := hf
  reflects hp := (h₀.reflects ((hk _).isOpen.1 hp)).of_keeps (hk _) hs.anchored
  closed hp := h₀.closed fun ho => hp ((hk _).isOpen.2 ho)

/-- No unit of work notices what happens to the locks alone. -/
theorem with_locks (h₀ : h.Sound) {awaits : Owner → Option Int} (locks : Table Lock)
    (hs : ({ h.bank with locks } : Bank).Sound awaits) :
    ({ h with bank := { h.bank with locks }, awaits } : Hall).Sound :=
  h₀.with_bank hs (h₀.fresh.with_locks locks) fun p => .of_locks h.bank p locks

end Sound

end Hall

/-! ## Calls one by one -/

namespace Bank

/-- What a call comes to in a unit of work that amounts to the given deeds: only its owner notices,
and what the call is answered is added to the deeds. -/
structure Called (spent : Spent) (b : Bank) (awaits : Owner → Option Int) (o : Owner) (c : Call)
    (ds : List Deed) (x : Option (Except LedgerError c.Answer) × Bank) : Prop where
  sound : x.2.Sound (update awaits o (if x.1.isNone then c.row? else none))
  fresh : x.2.Fresh spent
  keeps : ∀ {p}, p ≠ o → b.Keeps p x.2
  reflects : x.2.IsOpen o →
    x.2.Reflects o (ds ++ (x.1.toList.map (Exchange.mk c)).flatMap Exchange.deeds)

variable {spent : Spent} {b : Bank} {awaits : Owner → Option Int} {o : Owner} {ds : List Deed}

/-- An owner that waits for nothing. -/
theorem Sound.idle (h : b.Sound awaits) (ha : awaits o = none) :
    b.Sound (update awaits o none) := by
  rwa [← ha, update_eq_self]

theorem called_begin (hb : b.Sound awaits) (hf : b.Fresh spent) (hclosed : ¬ b.IsOpen o)
    (ha : awaits o = none) : b.Called spent awaits o .begin [] ((store o).perform .begin b) := by
  have hempty : (b.begin o).work o = {} := by rw [work_begin, work_of_not_isOpen hclosed]
  have hs := hb.begin hclosed
  exact ⟨hs.idle ha, hf.begin o, (within_begin b o).keeps hb hs, fun _ => .of_empty hempty⟩

section Open

variable (hb : b.Sound awaits) (hf : b.Fresh spent) (ho : b.IsOpen o) (hr : b.Reflects o ds)
include hb hf ho hr

theorem called_createTransfer (ha : awaits o = none) (n : NewTransfer) :
    b.Called spent awaits o (.createTransfer n) ds
      ((store o).perform (.createTransfer n) b) := by
  obtain ⟨hs, hw, -⟩ := hb.createTransfer ho n
  have hreflects := hr.createTransfer hb ho n
  rw [← List.append_nil (Deed.noted _ _)] at hreflects
  exact ⟨hs.idle ha, hf.createTransfer ho n, hw.keeps hb hs, fun _ => hreflects⟩

theorem called_createEntry (ha : awaits o = none) (n : NewEntry) :
    b.Called spent awaits o (.createEntry n) ds ((store o).perform (.createEntry n) b) := by
  obtain ⟨hs, hw, -⟩ := hb.createEntry ho n
  have hreflects := hr.createEntry hb ho n
  rw [← List.append_nil (Deed.noted _ _)] at hreflects
  exact ⟨hs.idle ha, hf.createEntry ho n, hw.keeps hb hs, fun _ => hreflects⟩

theorem called_addBalance {a : Int} (ha : awaits o = none ∨ awaits o = some a) (delta : Int) :
    b.Called spent awaits o (.addBalance a delta) ds
      ((store o).perform (.addBalance a delta) b) := by
  obtain ⟨hw, -, hs⟩ := hb.addBalance ho ha delta
  have hreflects := hr.addBalance hb ho ha delta
  refine ⟨hs, hf.addBalance hb ho ha delta, hw.keeps hb hs, fun _ => ?_⟩
  show (b.addBalance o a delta).2.Reflects o
    (ds ++ ((b.addBalance o a delta).1.toList.map (Exchange.mk (.addBalance a delta))).flatMap
      Exchange.deeds)
  generalize b.addBalance o a delta = x at hreflects ⊢
  obtain ⟨_ | answer, b'⟩ := x
  · exact hreflects
  · dsimp only at hreflects
    rw [← List.append_nil (Deed.noted _ _)] at hreflects
    exact hreflects

omit hr in
theorem called_commit (ha : awaits o = none) :
    b.Called spent awaits o .commit ds ((store o).perform .commit b) where
  sound := (hb.commit ho ha).idle ha
  fresh := hf.commit ho (hb.locking.once o)
  keeps := hb.keeps_commit ho
  reflects hopen := absurd hopen (not_isOpen_commit hb ho)

omit ho hr in
theorem called_rollback (ha : awaits o = none) :
    b.Called spent awaits o .rollback ds ((store o).perform .rollback b) where
  sound := (hb.rollback ha).idle ha
  fresh := hf.rollback (hb.locking.once o)
  keeps := hb.within_rollback.keeps hb (hb.rollback ha)
  reflects hopen := absurd hopen (not_isOpen_rollback hb)

end Open

end Bank

namespace Hall

variable {h : Hall} {o : Owner} {c : Call}

/-- **Each call does only what its owner notices.** -/
theorem Sound.called (h₀ : h.Sound) (hc : h.MayCall o c) :
    h.bank.Called {} h.awaits o c (h.deeds o) ((Bank.store o).perform c h.bank) := by
  obtain ⟨hopen, ha⟩ := hc
  have hb := h₀.bank
  have hf := h₀.fresh
  have idle : c.row? = none → h.awaits o = none := by
    intro hrow
    rcases ha with ha | ha
    · exact ha
    · exact ha.trans hrow
  cases c with
  | begin =>
      have hclosed : ¬ h.bank.IsOpen o := fun ho => hopen.1 ho rfl
      have hnone : h.deeds o = [] := by
        unfold deeds
        rw [h₀.closed hclosed]
        rfl
      rw [hnone]
      exact Bank.called_begin hb hf hclosed (idle rfl)
  | createTransfer n =>
      have ho := hopen.2 (by simp)
      exact Bank.called_createTransfer hb hf ho (h₀.reflects ho) (idle rfl) n
  | createEntry n =>
      have ho := hopen.2 (by simp)
      exact Bank.called_createEntry hb hf ho (h₀.reflects ho) (idle rfl) n
  | addBalance account delta =>
      have ho := hopen.2 (by simp)
      exact Bank.called_addBalance hb hf ho (h₀.reflects ho) ha delta
  | commit => exact Bank.called_commit hb hf (hopen.2 (by simp)) (idle rfl)
  | rollback => exact Bank.called_rollback hb hf (idle rfl)

theorem after_call (hc : h.MayCall o c) : h.after (.call o c) = h.call o c := if_pos hc

theorem awaits_call (h : Hall) (o : Owner) (c : Call) : (h.call o c).awaits = update h.awaits o
    (if ((Bank.store o).perform c h.bank).1.isNone then c.row? else none) := rfl

theorem log_call_self (h : Hall) (o : Owner) (c : Call) (ho : (h.call o c).bank.IsOpen o) :
    (h.call o c).log o =
      h.log o ++ ((Bank.store o).perform c h.bank).1.toList.map (Exchange.mk c) := by
  show update h.log o (if _ then _ else _) o = _
  rw [update_self]
  exact if_pos ho

theorem after_updateAccount {number : Nat} {account balance : Int}
    (hm : h.MayState number account) : h.after (.updateAccount number account balance) =
      h.state number account (h.bank.updateAccount (.call number) account balance) := if_pos hm

theorem after_deleteAccount {number : Nat} {account : Int} (hm : h.MayState number account) :
    h.after (.deleteAccount number account) =
      h.state number account (h.bank.deleteAccount (.call number) account) := if_pos hm

theorem awaits_leave (h : Hall) (o : Owner) : (h.leave o).awaits = update h.awaits o none := by
  unfold leave
  cases ha : h.awaits o with
  | none =>
      have hsame : update h.awaits o (h.awaits o) = h.awaits := update_eq_self o h.awaits
      rw [ha] at hsame
      exact hsame.symm
  | some a => rfl

theorem log_leave (h : Hall) (o : Owner) : (h.leave o).log = h.log := by
  unfold leave
  cases h.awaits o <;> rfl

namespace Sound

theorem call (h₀ : h.Sound) (hc : h.MayCall o c) : (h.call o c).Sound := by
  obtain ⟨hs, hf, hk, hr⟩ := h₀.called hc
  refine h₀.act hs hf hk (fun ho => ?_) fun ho => if_neg ho
  rw [if_pos ho, List.flatMap_append]
  exact hr ho

theorem leave (h₀ : h.Sound) (o : Owner) : (h.leave o).Sound := by
  unfold Hall.leave
  cases ha : h.awaits o with
  | none => exact h₀
  | some a =>
      obtain ⟨-, ⟨locks, hlocks⟩, hs⟩ := h₀.bank.abandon ha
      dsimp only
      rw [hlocks] at hs ⊢
      exact h₀.with_locks locks hs

theorem drop (h₀ : h.Sound) (o : Owner) : (h.drop o).Sound := by
  have hleave := h₀.leave o
  have hs := hleave.bank
  have hback := hs.rollback (o := o) (by rw [awaits_leave, update_self])
  have hact := hleave.act hback (hleave.fresh.rollback (hs.locking.once o))
    (hs.within_rollback.keeps hs hback) (fun ho => absurd ho (Bank.not_isOpen_rollback hs))
    fun _ => rfl
  rwa [log_leave] at hact

theorem updateAccount (h₀ : h.Sound) {number : Nat} {account : Int}
    (hm : h.MayState number account) (balance : Int) : (h.state number account
      (h.bank.updateAccount (.call number) account balance)).Sound := by
  obtain ⟨hclosed, ha⟩ := hm
  rcases h₀.bank.updateAccount_cases (Bank.heldBy_of_not_isOpen hclosed) ha balance with
    ⟨locks, ⟨heq, -, hs, -⟩ | ⟨answer, heq, -, -, hs⟩ | ⟨r, -, hfree, -, heq, hs⟩⟩
  · rw [heq]
    exact h₀.with_locks locks hs
  · rw [heq]
    exact h₀.with_locks locks hs
  · rw [heq]
    refine h₀.with_bank hs ?_ fun p => ?_
    · refine h₀.fresh.with_accounts locks fun k hk => ?_
      rwa [Table.contains_modify] at hk
    · refine Bank.keeps_of_free hfree (fun k hk => ?_) locks p
      rw [Table.get?_modify, if_neg hk]

theorem deleteAccount (h₀ : h.Sound) {number : Nat} {account : Int}
    (hm : h.MayState number account) :
    (h.state number account (h.bank.deleteAccount (.call number) account)).Sound := by
  obtain ⟨hclosed, ha⟩ := hm
  rcases h₀.bank.deleteAccount_cases (Bank.heldBy_of_not_isOpen hclosed) ha with
    ⟨locks, ⟨heq, -, hs, -⟩ | ⟨answer, heq, -, -, hs⟩ | ⟨-, hfree, -, heq, hs⟩⟩
  · rw [heq]
    exact h₀.with_locks locks hs
  · rw [heq]
    exact h₀.with_locks locks hs
  · rw [heq]
    refine h₀.with_bank hs ?_ fun p => ?_
    · refine h₀.fresh.with_accounts locks fun k hk => ?_
      obtain ⟨r, hr⟩ := Table.contains_iff.1 hk
      exact Table.contains_iff.2 ⟨r, (Table.get?_erase_eq_some.1 hr).2⟩
    · refine Bank.keeps_of_free hfree (fun k hk => ?_) locks p
      rw [Table.get?_erase, if_neg hk]

/-- **Every move keeps a hall sound.** -/
theorem after (h₀ : h.Sound) (m : Move) : (h.after m).Sound := by
  cases m with
  | call o c =>
      by_cases hm : h.MayCall o c
      · rw [after_call hm]
        exact h₀.call hm
      · have hsame : h.after (.call o c) = h := if_neg hm
        rwa [hsame]
  | leave o => exact h₀.leave o
  | drop o => exact h₀.drop o
  | createAccount n =>
      obtain ⟨hs, hk, -⟩ := h₀.bank.createAccount h₀.fresh.nextAccount n
      exact h₀.with_bank hs (h₀.fresh.createAccount n) hk
  | updateAccount number account balance =>
      by_cases hm : h.MayState number account
      · rw [after_updateAccount hm]
        exact h₀.updateAccount hm balance
      · have hsame : h.after (.updateAccount number account balance) = h := if_neg hm
        rwa [hsame]
  | deleteAccount number account =>
      by_cases hm : h.MayState number account
      · rw [after_deleteAccount hm]
        exact h₀.deleteAccount hm
      · have hsame : h.after (.deleteAccount number account) = h := if_neg hm
        rwa [hsame]
  | tick now =>
      exact h₀.with_bank (h₀.bank.with_numbers now _ _ _) (h₀.fresh.tick now)
        fun p => .of_work? rfl rfl fun _ _ => rfl

theorem afterAll (h₀ : h.Sound) (ms : List Move) : (h.afterAll ms).Sound := by
  induction ms generalizing h with
  | nil => exact h₀
  | cons m ms ih => exact ih (h₀.after m)

end Sound

theorem sound_opening (nonNegative : Bool) : (opening nonNegative).Sound where
  bank := Bank.sound_empty nonNegative
  fresh := Bank.fresh_empty nonNegative
  reflects ho := nomatch ho
  closed _ := rfl

/-- **A hall is sound after any moves.** -/
theorem sound_run (nonNegative : Bool) (ms : List Move) :
    ((opening nonNegative).afterAll ms).Sound :=
  (sound_opening nonNegative).afterAll ms

end Hall

end DoubleEntry
