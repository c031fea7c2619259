import DoubleEntry.Bank.Desk
import DoubleEntry.Proofs.InFlight
set_option autoImplicit false

/-! # How far a call gets

A call that may have to wait is carried as far as it gets (`Request.proceed`): it waits, or it ends
with a reply. Either way the bank stays sound, nothing that others have in flight is touched, and on
the ledger takes effect exactly what the reply says (`Bank.Performs`).
-/

namespace DoubleEntry

open Function (update update_self update_of_ne)

/-- What the reply to a command says about the ledger. Within a unit of work nothing takes effect
before the commit, which does not answer with what the unit of work did. -/
def Effect.of : Command → Reply → List Effect
  | .createAccount n, .done (.account answer) => [.opened n answer]
  | .updateAccount a balance, .done (.account answer) => [.updated a balance answer]
  | .deleteAccount a, .done (.flag true) => [.deleted a]
  | .transfer n _, .transfer (.completed receipt) _ => [.committed (receipt.deeds n)]
  | _, _ => []

/-- The call that a command starts, if it is one that may have to wait. -/
def Command.request? : Command → Option Request
  | .onUnit unit (.addBalance account delta) => some (.addBalance unit account delta)
  | .updateAccount account balance => some (.updateAccount account balance)
  | .deleteAccount account => some (.deleteAccount account)
  | .transfer n faults => some (.transfer { request := n, faults })
  | _ => none

namespace Request

/-- The command that a call stems from. -/
def command : Request → Command
  | .addBalance unit account delta => .onUnit unit (.addBalance account delta)
  | .updateAccount account balance => .updateAccount account balance
  | .deleteAccount account => .deleteAccount account
  | .transfer run => .transfer run.request run.faults

theorem awaits?_transfer (run : Run) :
    (Request.transfer run).awaits? = run.stage.awaits? run.request := by
  obtain ⟨n, faults, stage, answered⟩ := run
  cases stage <;> rfl

/-- Carries a call as far as it gets: its reply, or what is left of it if it waits. -/
def proceed (number : Nat) (r : Request) (b : Bank) : Option Reply × Request × Bank :=
  match r with
  | .addBalance unit account delta =>
      let (answer, b) := b.addBalance (.unit unit) account delta
      (answer.map (.of .account), r, b)
  | .updateAccount account balance =>
      let (answer, b) := b.updateAccount (.call number) account balance
      (answer.map (.of .optionalAccount), r, b)
  | .deleteAccount account =>
      let (answer, b) := b.deleteAccount (.call number) account
      (answer.map (.of .flag), r, b)
  | .transfer run =>
      match (Bank.store (.call number)).run run b with
      | (.waiting run, b) => (none, .transfer run, b)
      | (.ended outcome made, b) => (some (.transfer outcome made), r, b.rollback (.call number))

/-- What the end of a call adds to the metrics. -/
def record (m : Metrics) : Reply → Metrics
  | .transfer outcome _ => m.recordOutcome outcome
  | _ => m

end Request

/-- Carrying a call leaves it waiting, or forgets it. -/
theorem Desk.attempt_eq (d : Desk) (number : Nat) (r : Request) : d.attempt number r =
    match r.proceed number d.bank with
    | (none, r, bank) => (none, { d with bank }.park number r)
    | (some reply, _, bank) =>
        (some reply,
          { d with bank, metrics := Request.record d.metrics reply }.dismiss number) := by
  cases r with
  | addBalance unit account delta =>
      simp only [Desk.attempt, Request.proceed]
      rcases d.bank.addBalance (.unit unit) account delta with ⟨_ | answer, bank⟩
      · rfl
      · cases answer <;> rfl
  | updateAccount account balance =>
      simp only [Desk.attempt, Request.proceed]
      rcases d.bank.updateAccount (.call number) account balance with ⟨_ | answer, bank⟩
      · rfl
      · cases answer <;> rfl
  | deleteAccount account =>
      simp only [Desk.attempt, Request.proceed]
      rcases d.bank.deleteAccount (.call number) account with ⟨_ | answer, bank⟩
      · rfl
      · cases answer <;> rfl
  | transfer run =>
      simp only [Desk.attempt, Request.proceed]
      rcases (Bank.store (.call number)).run run d.bank with ⟨_ | ⟨outcome, made⟩, bank⟩ <;> rfl

namespace Bank

/-- **What an owner brings about.** It leaves alone what the others have in flight, and the given
effects take place on the ledger, which allows them. -/
structure Performs (spent : Spent) (o : Owner) (es : List Effect) (b b' : Bank) : Prop where
  keeps : ∀ {p}, p ≠ o → b.Keeps p b'
  fresh : b'.Fresh spent
  nonNegative : b'.nonNegative = b.nonNegative
  ledger : b'.ledger = b.ledger.applyAll es
  allowed : b.ledger.AllowsAll b.nonNegative es

variable {spent : Spent} {b b' : Bank} {o : Owner} {awaits awaits' : Owner → Option Int}
  {number : Nat} {r : Request}

theorem Within.performs (h : b.Within o b') (hb : b.Sound awaits) (hb' : b'.Sound awaits')
    (hf : b'.Fresh spent) : b.Performs spent o [] b' :=
  ⟨fun hp => h.keeps hb hb' hp, hf, h.nonNegative, h.ledger, trivial⟩

/-- Committing a unit of work. -/
theorem Reflects.performs {ds : List Deed} (h : b.Reflects o ds) (hb : b.Sound awaits)
    (hf : b.Fresh spent) (ho : b.IsOpen o) : b.Performs spent o [.committed ds] (b.commit o) where
  keeps hp := hb.keeps_commit ho hp
  fresh := hf.commit ho (hb.locking.once o)
  nonNegative := by rw [commit_eq ho (hb.locking.once o)]
  ledger := h.commit hb ho
  allowed := by
    refine Ledger.allowsAll_singleton.2 ⟨h.admitted, ?_, ?_, ?_, ?_⟩
    · rw [← h.transfers]
      exact hf.transfers.nodup o
    · rw [← h.transfers]
      exact fun t ht => (hf.transfers.fresh ht).2
    · rw [← h.entries]
      exact hf.entries.nodup o
    · rw [← h.entries]
      exact fun e he => (hf.entries.fresh he).2

/-- When a call can be carried further: its owner waits for nothing else, and its unit of work is as
it was left. -/
def CanProceed (spent : Spent) (b : Bank) (awaits : Owner → Option Int) (number : Nat) :
    Request → Prop
  | .addBalance unit account _ => b.IsOpen (.unit unit) ∧ ¬ b.IsOpen (.call number) ∧
      (awaits (.unit unit) = none ∨ awaits (.unit unit) = some account)
  | .updateAccount account _ | .deleteAccount account => ¬ b.IsOpen (.call number) ∧
      (awaits (.call number) = none ∨ awaits (.call number) = some account)
  | .transfer run => b.InFlight spent awaits (.call number) run.request run b

/-- What is left of a call that waits. -/
def Parked (b : Bank) (number : Nat) : Request → Prop
  | .addBalance unit _ _ => b.IsOpen (.unit unit)
  | .updateAccount _ _ | .deleteAccount _ => ¬ b.IsOpen (.call number)
  | .transfer run => b.Carries (.call number) run.request run.stage ∧
      faultOf? run.faults run.answered run.call = none

/-- A call that has to wait. -/
structure Stays (spent : Spent) (b : Bank) (awaits : Owner → Option Int) (number : Nat)
    (r r' : Request) (b' : Bank) : Prop where
  owner : r'.owner number = r.owner number
  parked : b'.Parked number r'
  within : b.Within (r.owner number) b'
  fresh : b'.Fresh spent
  sound : ∃ a, r'.awaits? = some a ∧ b'.Sound (update awaits (r.owner number) (some a))
  call : b'.IsOpen (.call number) → ∃ run, r' = .transfer run

/-- A call that ended with a reply. -/
structure Leaves (spent : Spent) (b : Bank) (awaits : Owner → Option Int) (number : Nat)
    (r : Request) (reply : Reply) (b' : Bank) : Prop where
  performs : b.Performs spent (r.owner number) (Effect.of r.command reply) b'
  sound : b'.Sound (update awaits (r.owner number) none)
  closed : ¬ b'.IsOpen (.call number)

/-- A call that was carried as far as it gets. -/
def Proceeded (spent : Spent) (b : Bank) (awaits : Owner → Option Int) (number : Nat)
    (r : Request) : Option Reply × Request × Bank → Prop
  | (none, r', b') => b.Stays spent awaits number r r' b'
  | (some reply, _, b') => b.Leaves spent awaits number r reply b'

theorem proceed_addBalance {unit : String} {account delta : Int}
    (h : b.CanProceed spent awaits number (.addBalance unit account delta)) (hb : b.Sound awaits)
    (hf : b.Fresh spent) :
    b.Proceeded spent awaits number (.addBalance unit account delta)
      ((Request.addBalance unit account delta).proceed number b) := by
  obtain ⟨ho, hclosed, ha⟩ := h
  obtain ⟨hw, ho', hs⟩ := hb.addBalance ho ha delta
  have hfresh := hf.addBalance hb ho ha delta
  have hcall : (b.addBalance (.unit unit) account delta).2.IsOpen (.call number) ↔
      b.IsOpen (.call number) := (hw.keeps hb hs (by simp)).isOpen
  unfold Request.proceed
  dsimp only
  generalize b.addBalance (.unit unit) account delta = x at hw ho' hs hfresh hcall ⊢
  obtain ⟨answer, b'⟩ := x
  cases answer with
  | none => exact ⟨rfl, ho', hw, hfresh, ⟨account, rfl, hs⟩, fun h => absurd (hcall.1 h) hclosed⟩
  | some answer =>
      cases answer <;> exact ⟨hw.performs hb hs hfresh, hs, fun h => hclosed (hcall.1 h)⟩

theorem proceed_updateAccount {account balance : Int}
    (h : b.CanProceed spent awaits number (.updateAccount account balance)) (hb : b.Sound awaits)
    (hf : b.Fresh spent) :
    b.Proceeded spent awaits number (.updateAccount account balance)
      ((Request.updateAccount account balance).proceed number b) := by
  obtain ⟨hclosed, ha⟩ := h
  have hheld := heldBy_of_not_isOpen hclosed
  unfold Request.proceed
  dsimp only
  rcases hb.updateAccount_cases hheld ha balance with
    ⟨locks, ⟨heq, hw, hs, -⟩ | ⟨answer, heq, hanswer, hw, hs⟩ | ⟨r, hr, hfree, hbal, heq, hs⟩⟩
  · rw [heq]
    exact ⟨rfl, hclosed, hw, hf.with_locks locks, ⟨account, rfl, hs⟩, fun h => absurd h hclosed⟩
  · rw [heq]
    have hperforms := hw.performs hb hs (hf.with_locks locks)
    rcases hanswer with ⟨rfl, -⟩ | ⟨⟨e, rfl⟩, -⟩ <;> exact ⟨hperforms, hs, hclosed⟩
  · -- The balance is set: nobody has locked the row, so nobody notices.
    rw [heq]
    refine ⟨⟨fun {p} _ => ?_, ?_, rfl, ?_, Ledger.allowsAll_singleton.2 ?_⟩, hs, hclosed⟩
    · refine keeps_of_free hfree (fun k hk => ?_) locks p
      rw [Table.get?_modify, if_neg hk]
    · exact hf.with_accounts locks fun k hk => by rwa [Table.contains_modify] at hk
    · exact ledger_set hr _ locks
    · exact ⟨r.committed, by rw [get?_ledger, hr]; rfl, rfl, hbal⟩

theorem proceed_deleteAccount {account : Int}
    (h : b.CanProceed spent awaits number (.deleteAccount account)) (hb : b.Sound awaits)
    (hf : b.Fresh spent) :
    b.Proceeded spent awaits number (.deleteAccount account)
      ((Request.deleteAccount account).proceed number b) := by
  obtain ⟨hclosed, ha⟩ := h
  have hheld := heldBy_of_not_isOpen hclosed
  unfold Request.proceed
  dsimp only
  rcases hb.deleteAccount_cases hheld ha with
    ⟨locks, ⟨heq, hw, hs, -⟩ | ⟨answer, heq, hanswer, hw, hs⟩ |
      ⟨hcontains, hfree, hrefers, heq, hs⟩⟩
  · rw [heq]
    exact ⟨rfl, hclosed, hw, hf.with_locks locks, ⟨account, rfl, hs⟩, fun h => absurd h hclosed⟩
  · rw [heq]
    have hperforms := hw.performs hb hs (hf.with_locks locks)
    rcases hanswer with ⟨rfl, -⟩ | ⟨⟨e, rfl⟩, -⟩ <;> exact ⟨hperforms, hs, hclosed⟩
  · -- The account is deleted: nobody has locked the row, so nobody notices.
    rw [heq]
    refine ⟨⟨fun {p} _ => ?_, ?_, rfl, ?_, Ledger.allowsAll_singleton.2 ?_⟩, hs, hclosed⟩
    · refine keeps_of_free hfree (fun k hk => ?_) locks p
      rw [Table.get?_erase, if_neg hk]
    · refine hf.with_accounts locks fun k hk => ?_
      obtain ⟨r, hr⟩ := Table.contains_iff.1 hk
      exact Table.contains_iff.2 ⟨r, (Table.get?_erase_eq_some.1 hr).2⟩
    · exact ledger_erase b account locks
    · exact ⟨by rw [contains_ledger]; exact hcontains, hrefers⟩

theorem proceed_transfer {run : Run} (h : b.CanProceed spent awaits number (.transfer run))
    (hb : b.Sound awaits) :
    b.Proceeded spent awaits number (.transfer run)
      ((Request.transfer run).proceed number b) := by
  have hrun := InFlight.run h
  unfold Request.proceed
  dsimp only
  generalize (store (.call number)).run run b = x at hrun ⊢
  obtain ⟨run' | ⟨outcome, made⟩, b'⟩ := x
  · obtain ⟨hn, hw, hfresh, hcarries, a, ha, hs, hfault⟩ := hrun
    refine ⟨rfl, ⟨by rwa [hn], hfault⟩, hw, hfresh, ⟨a, ?_, hs⟩, fun _ => ⟨run', rfl⟩⟩
    rw [Request.awaits?_transfer, hn, ha]
  · -- The bank drops what is left of the unit of work, whatever the outcome.
    have hconcluded := hrun.dropped
    have hback := hrun.sound.rollback (update_self _ _ _)
    have hfresh := hrun.fresh.rollback (hrun.sound.locking.once (.call number))
    refine ⟨?_, hback, not_isOpen_rollback hrun.sound⟩
    cases outcome with
    | completed receipt =>
        obtain ⟨-, b₁, hw, hf₁, hs₁, ho₁, hdeeds, heq⟩ := hconcluded
        -- Up to its commit the transfer has worked within its own.
        have hcommit := hdeeds.performs hs₁ hf₁ ho₁
        rw [← heq] at hcommit
        refine ⟨fun hp => (hw.keeps hb hs₁ hp).trans (hcommit.keeps hp), hfresh,
          hcommit.nonNegative.trans hw.nonNegative, ?_, ?_⟩
        · rw [hcommit.ledger, hw.ledger]
          rfl
        · rw [← hw.ledger, ← hw.nonNegative]
          exact hcommit.allowed
    | failed e => exact hconcluded.performs hb hback hfresh
    | overflowed => exact hconcluded.performs hb hback hfresh

/-- **How far a call gets:** it waits, or it ends with a reply that says what takes effect. -/
theorem CanProceed.proceed (h : b.CanProceed spent awaits number r) (hb : b.Sound awaits)
    (hf : b.Fresh spent) : b.Proceeded spent awaits number r (r.proceed number b) := by
  cases r with
  | addBalance unit account delta => exact proceed_addBalance h hb hf
  | updateAccount account balance => exact proceed_updateAccount h hb hf
  | deleteAccount account => exact proceed_deleteAccount h hb hf
  | transfer run => exact proceed_transfer h hb

end Bank

end DoubleEntry
