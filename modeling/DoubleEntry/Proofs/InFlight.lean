import DoubleEntry.Proofs.Numbers
import DoubleEntry.Proofs.Runs
set_option autoImplicit false

/-! # Transfers on a bank

A transfer works in a unit of work of its own. `Bank.InFlight` is what holds of it between two
calls: the bank differs from the one that it found at most in what this unit of work has in flight,
and the unit of work has done what the stage says. From it follows where a transfer waits
(`Bank.Waits`) and how it ends (`Bank.Ends`): with all its deeds committed at once, or with none.
-/

namespace DoubleEntry.Bank

open Function (update update_self update_of_ne)

/-- **A bank is as a transfer takes it to be** at a stage. -/
structure Carries (b : Bank) (o : Owner) (n : NewTransfer) (s : Stage) : Prop where
  isOpen : b.IsOpen o ↔ s ≠ .beginning
  reflects : ∀ {ds}, s.deeds? n = some ds → b.Reflects o ds
  locked : ∀ {as}, s.locked? n = some as → b.heldBy o = as
  fits : s.Fits n

variable {spent : Spent} {b₀ b b' : Bank} {o : Owner} {awaits : Owner → Option Int}
  {n : NewTransfer} {r : Run} {faults : List Fault} {answered : List Call}

theorem Carries.of_keeps {s : Stage} (h : b.Carries o n s) (hk : b.Keeps o b')
    (hb' : b'.Anchored) : b'.Carries o n s where
  isOpen := hk.isOpen.trans h.isOpen
  reflects hs := (h.reflects hs).of_keeps hk hb'
  locked hs := hk.heldBy.trans (h.locked hs)
  fits := h.fits

/-- A transfer between two calls. -/
structure InFlight (spent : Spent) (b₀ : Bank) (awaits : Owner → Option Int) (o : Owner)
    (n : NewTransfer) (r : Run) (b : Bank) : Prop where
  request : r.request = n
  within : b₀.Within o b
  fresh : b.Fresh spent
  carries : b.Carries o n r.stage
  /-- The transfer may have been given a row lock that it awaits; then no fault is in the way. -/
  sound : b.Sound (update awaits o none) ∨ ∃ a, r.stage.awaits? n = some a ∧
    b.Sound (update awaits o (some a)) ∧ faultOf? r.faults r.answered r.call = none

/-- A transfer that waits. -/
structure Waits (spent : Spent) (b₀ : Bank) (awaits : Owner → Option Int) (o : Owner)
    (n : NewTransfer) (r : Run) (b : Bank) : Prop where
  request : r.request = n
  within : b₀.Within o b
  fresh : b.Fresh spent
  carries : b.Carries o n r.stage
  sound : ∃ a, r.stage.awaits? n = some a ∧ b.Sound (update awaits o (some a)) ∧
    faultOf? r.faults r.answered r.call = none

/-- How a transfer has ended: its deeds were committed at once, or the others notice nothing. -/
def Concluded (spent : Spent) (b₀ : Bank) (awaits : Owner → Option Int) (o : Owner)
    (n : NewTransfer) (b : Bank) : Outcome → Prop
  | .completed receipt => receipt.Fits n ∧ ∃ b₁ : Bank, b₀.Within o b₁ ∧ b₁.Fresh spent ∧
      b₁.Sound (update awaits o none) ∧ b₁.IsOpen o ∧ b₁.Reflects o (receipt.deeds n) ∧
      b = b₁.commit o
  | .failed _ | .overflowed => b₀.Within o b

/-- A transfer that has ended. -/
structure Ends (spent : Spent) (b₀ : Bank) (awaits : Owner → Option Int) (o : Owner)
    (n : NewTransfer) (outcome : Outcome) (b : Bank) : Prop where
  fresh : b.Fresh spent
  sound : b.Sound (update awaits o none)
  concluded : b₀.Concluded spent awaits o n b outcome

/-- Where the next call of a transfer leads. -/
def Proceeds (spent : Spent) (b₀ : Bank) (awaits : Owner → Option Int) (o : Owner)
    (n : NewTransfer) (r : Run) (b : Bank) : Prop :=
  Store.Leads (b₀.InFlight spent awaits o n) (b₀.Waits spent awaits o n) (b₀.Ends spent awaits o n)
    r ((store o).answer r b)

/-- A transfer that a call failed is being given up. -/
theorem InFlight.rollingBack (hwithin : b₀.Within o b) (hfresh : b.Fresh spent)
    (hsound : b.Sound (update awaits o none)) (ho : b.IsOpen o) (e : LedgerError) :
    b₀.InFlight spent awaits o n ⟨n, faults, .rollingBack e, answered⟩ b where
  request := rfl
  within := hwithin
  fresh := hfresh
  carries := ⟨by simp [ho], by simp [Stage.deeds?], by simp [Stage.locked?], trivial⟩
  sound := .inl hsound

/-- A transfer whose last call succeeded. -/
theorem InFlight.of_deeds {s : Stage} {ds : List Deed} (hwithin : b₀.Within o b)
    (hfresh : b.Fresh spent) (hsound : b.Sound (update awaits o none)) (ho : b.IsOpen o)
    (hs : s ≠ .beginning) (hds : s.deeds? n = some ds) (hreflects : b.Reflects o ds)
    (hlocked : ∀ {as}, s.locked? n = some as → b.heldBy o = as) (hfits : s.Fits n) :
    b₀.InFlight spent awaits o n ⟨n, faults, s, answered⟩ b where
  request := rfl
  within := hwithin
  fresh := hfresh
  carries := by
    refine ⟨iff_of_true ho hs, fun hs => ?_, hlocked, hfits⟩
    rwa [← Option.some.inj (hds.symm.trans hs)]
  sound := .inl hsound

/-- A transfer is started by an owner that has nothing in flight. -/
theorem InFlight.start (hb : b.Sound awaits) (hfresh : b.Fresh spent) (hclosed : ¬ b.IsOpen o)
    (ha : awaits o = none) (n : NewTransfer) (faults : List Fault) :
    b.InFlight spent awaits o n { request := n, faults } b where
  request := rfl
  within := .refl _ _
  fresh := hfresh
  carries := by
    refine ⟨iff_of_false hclosed (by simp), fun hd => (nomatch hd), fun has => ?_, trivial⟩
    rw [heldBy_of_not_isOpen hclosed]
    exact Option.some.inj has
  sound := by
    rw [← ha, Function.update_eq_self]
    exact .inl hb

/-- Without a row that it awaits, a transfer has not asked for a lock. -/
theorem InFlight.not_waiting (h : b₀.InFlight spent awaits o n r b)
    (hn : r.stage.awaits? n = none) : b.Sound (update awaits o none) := by
  refine h.sound.resolve_right ?_
  rintro ⟨a, ha, -⟩
  rw [hn] at ha
  cases ha

/-- A fault is in the way only before a lock is asked for. -/
theorem InFlight.not_given (h : b₀.InFlight spent awaits o n r b) {e : LedgerError}
    (he : faultOf? r.faults r.answered r.call = some e) : b.Sound (update awaits o none) := by
  refine h.sound.resolve_right ?_
  rintro ⟨a, -, -, hnone⟩
  rw [hnone] at he
  cases he

/-! ## The calls one by one -/

theorem InFlight.leads_beginning
    (h : b₀.InFlight spent awaits o n ⟨n, faults, .beginning, answered⟩ b) :
    b₀.Proceeds spent awaits o n ⟨n, faults, .beginning, answered⟩ b := by
  unfold Proceeds
  have hsound := h.not_waiting rfl
  have hclosed : ¬ b.IsOpen o := fun ho => h.carries.isOpen.1 ho rfl
  rcases (store o).answer_cases ⟨n, faults, .beginning, answered⟩ b with ⟨e, -, heq⟩ | ⟨-, heq⟩
  · -- Nothing was opened, so nothing has to be rolled back.
    rw [heq]
    exact ⟨h.fresh, hsound, h.within⟩
  · rw [heq]
    have hempty : (b.begin o).work o = {} := by
      rw [work_begin, work_of_not_isOpen hclosed]
    have hopen : (b.begin o).IsOpen o := by
      unfold IsOpen
      rw [work?_begin_self hclosed]
      rfl
    have hheld : (b.begin o).heldBy o = [] := by
      unfold heldBy
      rw [hempty]
      rfl
    exact .of_deeds (h.within.trans (within_begin b o)) (h.fresh.begin o) (hsound.begin hclosed)
      hopen (by simp) rfl (.of_empty hempty) (fun has => hheld.trans (Option.some.inj has)) trivial

theorem InFlight.leads_recording
    (h : b₀.InFlight spent awaits o n ⟨n, faults, .recording, answered⟩ b) :
    b₀.Proceeds spent awaits o n ⟨n, faults, .recording, answered⟩ b := by
  unfold Proceeds
  have hsound := h.not_waiting rfl
  have ho : b.IsOpen o := h.carries.isOpen.2 (by simp)
  rcases (store o).answer_cases ⟨n, faults, .recording, answered⟩ b with ⟨e, -, heq⟩ | ⟨-, heq⟩
  · rw [heq]
    exact .rollingBack h.within h.fresh hsound ho e
  · obtain ⟨hs, hw, ho'⟩ := hsound.createTransfer ho n
    have hwithin := h.within.trans hw
    have hfresh := h.fresh.createTransfer ho n
    have hdeeds := (h.carries.reflects rfl).createTransfer hsound ho n
    have hheld := (congrFun (heldBy_createTransfer ho n) o).trans (h.carries.locked rfl)
    rw [heq]
    show Store.Leads _ _ _ ⟨n, faults, .recording, answered⟩
      (some (b.createTransfer o n).1, (b.createTransfer o n).2)
    -- A call that fails may have pinned the source; the rollback takes the pin off.
    cases hr : (b.createTransfer o n).1 with
    | error e => exact .rollingBack hwithin hfresh hs ho' e
    | ok t =>
        rw [hr] at hdeeds
        have hfits : t.Fits n := by
          rcases createTransfer_cases b o n with ⟨-, hc⟩ | ⟨-, -, hc⟩ | ⟨-, -, u, rfl, hc⟩
          · simp [hc] at hr
          · simp [hc] at hr
          · rw [hc] at hr
            obtain rfl := Except.ok.inj hr
            exact ⟨rfl, rfl, rfl⟩
        unfold Store.Leads
        dsimp only [Stage.resume]
        -- An amount without a negation ends the transfer before its unit of work does.
        cases Amount.negate? n.amount with
        | none => exact ⟨hfresh, hs, hwithin⟩
        | some m =>
            exact .of_deeds hwithin hfresh hs ho' (by simp) rfl hdeeds
              (fun has => hheld.trans (Option.some.inj has)) hfits

/-- Recording an entry, the debit or the credit of a transfer. -/
theorem InFlight.createEntry {s : Stage} {ds : List Deed}
    (h : b₀.InFlight spent awaits o n ⟨n, faults, s, answered⟩ b) (hn : s.awaits? n = none)
    (hds : s.deeds? n = some ds) (hlocked : s.locked? n = some []) (ho : b.IsOpen o)
    (m : NewEntry) :
    b₀.Within o (b.createEntry o m).2 ∧ (b.createEntry o m).2.Fresh spent ∧
      (b.createEntry o m).2.Sound (update awaits o none) ∧ (b.createEntry o m).2.IsOpen o ∧
      (b.createEntry o m).2.heldBy o = [] ∧
      ∀ e, (b.createEntry o m).1 = .ok e → e.account = m.account ∧ e.amount = m.amount ∧
        (b.createEntry o m).2.Reflects o (ds ++ [.entry e]) := by
  have hsound := h.not_waiting hn
  obtain ⟨hs, hw, ho'⟩ := hsound.createEntry ho m
  refine ⟨h.within.trans hw, h.fresh.createEntry ho m, hs, ho',
    (congrFun (heldBy_createEntry ho m) o).trans (h.carries.locked hlocked), fun e he => ?_⟩
  have hdeeds := (h.carries.reflects hds).createEntry hsound ho m
  rw [he] at hdeeds
  rcases createEntry_cases b o m with ⟨-, hc⟩ | ⟨-, u, rfl, hc⟩
  · simp [hc] at he
  · rw [hc] at he
    obtain rfl := Except.ok.inj he
    exact ⟨rfl, rfl, hdeeds⟩

theorem InFlight.leads_debiting {t : Transfer}
    (h : b₀.InFlight spent awaits o n ⟨n, faults, .debiting t, answered⟩ b) :
    b₀.Proceeds spent awaits o n ⟨n, faults, .debiting t, answered⟩ b := by
  unfold Proceeds
  have ho : b.IsOpen o := h.carries.isOpen.2 (by simp)
  rcases (store o).answer_cases ⟨n, faults, .debiting t, answered⟩ b with ⟨e, -, heq⟩ | ⟨-, heq⟩
  · rw [heq]
    exact .rollingBack h.within h.fresh (h.not_waiting rfl) ho e
  · obtain ⟨hwithin, hfresh, hs, ho', hheld, hok⟩ :=
      h.createEntry rfl rfl rfl ho ⟨n.source, -n.amount⟩
    rw [heq]
    show Store.Leads _ _ _ ⟨n, faults, .debiting t, answered⟩
      (some (b.createEntry o ⟨n.source, -n.amount⟩).1, (b.createEntry o ⟨n.source, -n.amount⟩).2)
    cases hr : (b.createEntry o ⟨n.source, -n.amount⟩).1 with
    | error e => exact .rollingBack hwithin hfresh hs ho' e
    | ok e =>
        obtain ⟨haccount, hamount, hdeeds⟩ := hok e hr
        exact .of_deeds hwithin hfresh hs ho' (by simp) rfl hdeeds
          (fun has => hheld.trans (Option.some.inj has)) ⟨h.carries.fits, haccount, hamount⟩

theorem InFlight.leads_crediting {t : Transfer} {debit : Entry}
    (h : b₀.InFlight spent awaits o n ⟨n, faults, .crediting t debit, answered⟩ b) :
    b₀.Proceeds spent awaits o n ⟨n, faults, .crediting t debit, answered⟩ b := by
  unfold Proceeds
  have ho : b.IsOpen o := h.carries.isOpen.2 (by simp)
  rcases (store o).answer_cases ⟨n, faults, .crediting t debit, answered⟩ b with
    ⟨e, -, heq⟩ | ⟨-, heq⟩
  · rw [heq]
    exact .rollingBack h.within h.fresh (h.not_waiting rfl) ho e
  · obtain ⟨hwithin, hfresh, hs, ho', hheld, hok⟩ :=
      h.createEntry rfl rfl rfl ho ⟨n.target, n.amount⟩
    rw [heq]
    show Store.Leads _ _ _ ⟨n, faults, .crediting t debit, answered⟩
      (some (b.createEntry o ⟨n.target, n.amount⟩).1, (b.createEntry o ⟨n.target, n.amount⟩).2)
    cases hr : (b.createEntry o ⟨n.target, n.amount⟩).1 with
    | error e => exact .rollingBack hwithin hfresh hs ho' e
    | ok e =>
        obtain ⟨haccount, hamount, hdeeds⟩ := hok e hr
        obtain ⟨ht, hdebit⟩ := h.carries.fits
        exact .of_deeds hwithin hfresh hs ho' (by simp) rfl hdeeds
          (fun has => hheld.trans (Option.some.inj has)) ⟨ht, hdebit, haccount, hamount⟩

/-- Adjusting a balance, the first or the second that a transfer adjusts. -/
theorem InFlight.addBalance {s : Stage} {ds : List Deed} {as : List Int} {a : Int}
    (h : b₀.InFlight spent awaits o n ⟨n, faults, s, answered⟩ b) (ha : s.awaits? n = some a)
    (hds : s.deeds? n = some ds) (hlocked : s.locked? n = some as) (ho : b.IsOpen o) (delta : Int) :
    b₀.Within o (b.addBalance o a delta).2 ∧ (b.addBalance o a delta).2.Fresh spent ∧
      (b.addBalance o a delta).2.IsOpen o ∧
      match (b.addBalance o a delta).1 with
      | none => (b.addBalance o a delta).2.Sound (update awaits o (some a)) ∧
          (b.addBalance o a delta).2.Carries o n s
      | some (.error _) => (b.addBalance o a delta).2.Sound (update awaits o none)
      | some (.ok account) => (b.addBalance o a delta).2.Sound (update awaits o none) ∧
          (b.addBalance o a delta).2.Reflects o (ds ++ [.adjustment a delta account]) ∧
          (b.addBalance o a delta).2.heldBy o = if a ∈ as then as else as ++ [a] := by
  -- The transfer asks for the first time, or again after it was woken.
  obtain ⟨x, hsound, hx⟩ : ∃ x, b.Sound (update awaits o x) ∧ (x = none ∨ x = some a) := by
    rcases h.sound with hs | ⟨c, hc, hs, -⟩
    · exact ⟨none, hs, .inl rfl⟩
    · exact ⟨some c, hs, .inr (hc.symm.trans ha)⟩
  have hasks : update awaits o x o = none ∨ update awaits o x o = some a := by
    rwa [update_self]
  obtain ⟨hw, ho', hs⟩ := hsound.addBalance ho hasks delta
  have hdeeds := (h.carries.reflects hds).addBalance hsound ho hasks delta
  obtain ⟨hwait, hheld⟩ := hsound.heldBy_addBalance ho hasks delta
  rw [Function.update_idem] at hs
  refine ⟨h.within.trans hw, h.fresh.addBalance hsound ho hasks delta, ho', ?_⟩
  cases hr : (b.addBalance o a delta).1 with
  | none =>
      rw [hr] at hs hdeeds
      rw [List.append_nil] at hdeeds
      refine ⟨hs, iff_of_true ho' (h.carries.isOpen.1 ho), fun hd => ?_, fun has => ?_,
        h.carries.fits⟩
      · rwa [← Option.some.inj (hds.symm.trans hd)]
      · calc (b.addBalance o a delta).2.heldBy o
            = b.heldBy o := (hwait hr).2
          _ = as := h.carries.locked hlocked
          _ = _ := Option.some.inj (hlocked.symm.trans has)
  | some answer =>
      rw [hr] at hs hdeeds
      cases answer with
      | error e => exact hs
      | ok account =>
          have hlock := hheld account hr
          rw [h.carries.locked hlocked] at hlock
          exact ⟨hs, hdeeds, hlock⟩

theorem InFlight.leads_adjustingFirst {t : Transfer} {debit credit : Entry}
    (h : b₀.InFlight spent awaits o n ⟨n, faults, .adjustingFirst t debit credit, answered⟩ b) :
    b₀.Proceeds spent awaits o n ⟨n, faults, .adjustingFirst t debit credit, answered⟩ b := by
  unfold Proceeds
  have ho : b.IsOpen o := h.carries.isOpen.2 (by simp)
  rcases (store o).answer_cases ⟨n, faults, .adjustingFirst t debit credit, answered⟩ b with
    ⟨e, he, heq⟩ | ⟨hnone, heq⟩
  · rw [heq]
    exact .rollingBack h.within h.fresh (h.not_given he) ho e
  · obtain ⟨hwithin, hfresh, ho', hcase⟩ :=
      h.addBalance rfl rfl rfl ho n.adjustments.1.delta
    rw [heq]
    show Store.Leads _ _ _ ⟨n, faults, .adjustingFirst t debit credit, answered⟩
      (b.addBalance o n.adjustments.1.account n.adjustments.1.delta)
    generalize b.addBalance o n.adjustments.1.account n.adjustments.1.delta = x
      at hwithin hfresh ho' hcase ⊢
    obtain ⟨answer, b'⟩ := x
    cases answer with
    | none => exact ⟨rfl, hwithin, hfresh, hcase.2, _, rfl, hcase.1, hnone⟩
    | some answer =>
        cases answer with
        | error e => exact .rollingBack hwithin hfresh hcase ho' e
        | ok first =>
            exact .of_deeds hwithin hfresh hcase.1 ho' (by simp) rfl hcase.2.1
              (fun has => hcase.2.2.trans (Option.some.inj has)) h.carries.fits

theorem InFlight.leads_adjustingSecond {t : Transfer} {debit credit : Entry} {first : Account}
    (h : b₀.InFlight spent awaits o n
      ⟨n, faults, .adjustingSecond t debit credit first, answered⟩ b) :
    b₀.Proceeds spent awaits o n
      ⟨n, faults, .adjustingSecond t debit credit first, answered⟩ b := by
  unfold Proceeds
  have ho : b.IsOpen o := h.carries.isOpen.2 (by simp)
  rcases (store o).answer_cases ⟨n, faults, .adjustingSecond t debit credit first, answered⟩ b with
    ⟨e, he, heq⟩ | ⟨hnone, heq⟩
  · rw [heq]
    exact .rollingBack h.within h.fresh (h.not_given he) ho e
  · obtain ⟨hwithin, hfresh, ho', hcase⟩ :=
      h.addBalance rfl rfl rfl ho n.adjustments.2.delta
    rw [heq]
    show Store.Leads _ _ _ ⟨n, faults, .adjustingSecond t debit credit first, answered⟩
      (b.addBalance o n.adjustments.2.account n.adjustments.2.delta)
    generalize b.addBalance o n.adjustments.2.account n.adjustments.2.delta = x
      at hwithin hfresh ho' hcase ⊢
    obtain ⟨answer, b'⟩ := x
    cases answer with
    | none => exact ⟨rfl, hwithin, hfresh, hcase.2, _, rfl, hcase.1, hnone⟩
    | some answer =>
        cases answer with
        | error e => exact .rollingBack hwithin hfresh hcase ho' e
        | ok second =>
            refine .of_deeds hwithin hfresh hcase.1 ho' (by simp) rfl ?_ (fun has => nomatch has)
              (Stage.fits_receipt h.carries.fits first second)
            rw [Stage.deeds_receipt]
            exact hcase.2.1

theorem InFlight.leads_committing {receipt : Receipt}
    (h : b₀.InFlight spent awaits o n ⟨n, faults, .committing receipt, answered⟩ b) :
    b₀.Proceeds spent awaits o n ⟨n, faults, .committing receipt, answered⟩ b := by
  unfold Proceeds
  have hsound := h.not_waiting rfl
  have ho : b.IsOpen o := h.carries.isOpen.2 (by simp)
  have hn := hsound.locking.once o
  rcases (store o).answer_cases ⟨n, faults, .committing receipt, answered⟩ b with
    ⟨e, -, heq⟩ | ⟨-, heq⟩
  · -- A commit that fails leaves the unit of work to be rolled back.
    rw [heq]
    exact ⟨h.fresh.rollback hn, hsound.rollback (update_self _ _ _),
      h.within.trans hsound.within_rollback⟩
  · rw [heq]
    exact ⟨h.fresh.commit ho hn, hsound.commit ho (update_self _ _ _), h.carries.fits, b, h.within,
      h.fresh, hsound, ho, h.carries.reflects rfl, rfl⟩

theorem InFlight.leads_rollingBack {cause : LedgerError}
    (h : b₀.InFlight spent awaits o n ⟨n, faults, .rollingBack cause, answered⟩ b) :
    b₀.Proceeds spent awaits o n ⟨n, faults, .rollingBack cause, answered⟩ b := by
  unfold Proceeds
  have hsound := h.not_waiting rfl
  have hended : ∀ e, b₀.Ends spent awaits o n (.failed e) (b.rollback o) := fun e =>
    ⟨h.fresh.rollback (hsound.locking.once o), hsound.rollback (update_self _ _ _),
      h.within.trans hsound.within_rollback⟩
  rcases (store o).answer_cases ⟨n, faults, .rollingBack cause, answered⟩ b with
    ⟨e, -, heq⟩ | ⟨-, heq⟩
  · -- The rollback is carried out even if it reports a failure.
    rw [heq]
    exact hended _
  · rw [heq]
    exact hended _

/-! ## The whole transfer -/

/-- **Each call of a transfer** leads to the next, to a wait or to its end. -/
theorem InFlight.leads (h : b₀.InFlight spent awaits o n r b) :
    b₀.Proceeds spent awaits o n r b := by
  obtain ⟨request, faults, stage, answered⟩ := r
  obtain rfl : request = n := h.request
  cases stage with
  | beginning => exact h.leads_beginning
  | recording => exact h.leads_recording
  | debiting t => exact h.leads_debiting
  | crediting t debit => exact h.leads_crediting
  | adjustingFirst t debit credit => exact h.leads_adjustingFirst
  | adjustingSecond t debit credit first => exact h.leads_adjustingSecond
  | committing receipt => exact h.leads_committing
  | rollingBack cause => exact h.leads_rollingBack

/-- **A transfer waits or ends,** whatever calls of it fail. -/
theorem InFlight.run (h : b₀.InFlight spent awaits o n r b) :
    Store.Satisfies (b₀.Waits spent awaits o n) (b₀.Ends spent awaits o n) ((store o).run r b) :=
  Store.run_satisfies (fun _ _ h => h.leads) h

/-- Dropping what is left of its unit of work changes nothing about how a transfer has ended. -/
theorem Ends.dropped {outcome : Outcome} (h : b₀.Ends spent awaits o n outcome b) :
    b₀.Concluded spent awaits o n (b.rollback o) outcome := by
  have hconcluded := h.concluded
  cases outcome with
  | completed receipt =>
      obtain ⟨hfits, b₁, hw, hf, hs, ho, hdeeds, rfl⟩ := hconcluded
      exact ⟨hfits, b₁, hw, hf, hs, ho, hdeeds, rollback_of_not_isOpen (not_isOpen_commit hs ho)⟩
  | failed e => exact hconcluded.trans h.sound.within_rollback
  | overflowed => exact hconcluded.trans h.sound.within_rollback

end DoubleEntry.Bank
