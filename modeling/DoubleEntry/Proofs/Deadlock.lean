import DoubleEntry.Proofs.Journal
set_option autoImplicit false

/-! # Deadlock freedom

When no pending call gets any further, each of them waits for a row that somebody else has locked. A
statement about a single account has locked nothing while it waits, and a transfer at most the row
with the lower number, so from transfer to transfer the awaited numbers increase and the waiting
ends at a unit of work with a name (`Desk.WaitsOnUnits`). Transfers and single statements alone
never block each other.
-/

namespace DoubleEntry

/-- A table has only so many rows. -/
theorem Table.exists_bound {α : Type} (t : Table α) :
    ∃ bound, ∀ {k a}, t.get? k = some a → k ≤ bound := by
  obtain ⟨bound, hbound⟩ := (List.finite_toSet (t.rows.map Prod.fst)).bddAbove
  exact ⟨bound, fun ha => hbound (List.mem_map.2 ⟨_, Table.mem_rows_iff.2 ha, rfl⟩)⟩

/-! ## Calls that were given what they wait for -/

/-- A transfer whose next call is answered makes that call. -/
theorem Store.run_answered {σ : Type} (store : Store σ) (r : Run) (s : σ)
    (h : (store.answer r s).1.isSome) :
    Satisfies (fun r' _ => r.answered.length < r'.answered.length) (fun _ _ => True)
      (store.run r s) := by
  have hmade : ∀ r' : Run, r'.made.length = r'.answered.length + 1 := fun r' => by
    simp [Run.made]
  obtain ⟨fuel, hfuel⟩ := Nat.exists_eq_succ_of_ne_zero (remaining_pos r.stage).ne'
  unfold Store.run
  rw [hfuel]
  unfold runFor
  rcases heq : store.answer r s with ⟨_ | answer, s'⟩
  · rw [heq] at h
    cases h
  · dsimp only
    cases hstage : r.stage.resume r.request answer with
    | inr outcome => trivial
    | inl stage =>
        have hless := Stage.remaining_resume hstage
        -- One call is made now, and those that follow are made after it.
        refine runFor_satisfies (P := fun r' _ => r.answered.length < r'.answered.length)
          (fun r' s' hr => ?_) fuel (by dsimp only; omega) (by dsimp only; rw [hmade]; omega)
        unfold Store.Leads
        rcases store.answer r' s' with ⟨_ | answer', s''⟩
        · exact hr
        · dsimp only
          cases r'.stage.resume r'.request answer' with
          | inl stage' =>
              dsimp only
              rw [hmade]
              omega
          | inr outcome => trivial

namespace Bank

variable {b : Bank} {o : Owner} {a : Int} {l : Lock}

/-- An owner that has been given a lock is answered when it asks for it again. -/
theorem acquire_of_given (hl : b.locks.get? a = some l) (hh : l.holder = o) :
    (b.acquire o a).1 ≠ .waiting := by
  unfold acquire
  rw [hl]
  dsimp only
  rw [if_pos hh]
  by_cases ha : b.accounts.contains a = true
  · rw [if_pos ha]
    exact Grant.noConfusion
  · rw [if_neg ha]
    exact Grant.noConfusion

theorem addBalance_of_given (hl : b.locks.get? a = some l) (hh : l.holder = o) (delta : Int) :
    (b.addBalance o a delta).1.isSome := by
  have hgiven := acquire_of_given hl hh
  unfold addBalance
  by_cases hheld : (b.work o).holds a = true
  · rw [if_pos hheld]
    rfl
  · rw [if_neg hheld]
    generalize b.acquire o a = x at hgiven ⊢
    obtain ⟨_ | _ | _, b'⟩ := x
    · rfl
    · exact absurd rfl hgiven
    · rfl

theorem updateAccount_of_given (hl : b.locks.get? a = some l) (hh : l.holder = o) (balance : Int) :
    (b.updateAccount o a balance).1.isSome := by
  have hgiven := acquire_of_given hl hh
  unfold updateAccount
  generalize b.acquire o a = x at hgiven ⊢
  obtain ⟨_ | _ | _, b'⟩ := x
  · dsimp only
    cases b'.checkBalance a balance <;> cases b'.accounts.get? a <;> rfl
  · exact absurd rfl hgiven
  · rfl

theorem deleteAccount_of_given (hl : b.locks.get? a = some l) (hh : l.holder = o) :
    (b.deleteAccount o a).1.isSome := by
  have hgiven := acquire_of_given hl hh
  unfold deleteAccount
  generalize b.acquire o a = x at hgiven ⊢
  obtain ⟨_ | _ | _, b'⟩ := x
  · dsimp only
    cases b'.accounts.get? a with
    | none => rfl
    | some row =>
        dsimp only
        split <;> rfl
  · exact absurd rfl hgiven
  · rfl

end Bank

namespace Desk

variable {nonNegative : Bool} {spent : Spent} {d : Desk} {n m : Nat} {r : Request} {o p : Owner}
  {a : Int} {l : Lock}

/-- No pending call gets any further: asking it changes nothing. -/
def Stuck (d : Desk) : Prop := ∀ x ∈ d.pending, d.poll x.1 = (none, d)

instance (d : Desk) : Decidable d.Stuck :=
  inferInstanceAs (Decidable (∀ x ∈ d.pending, d.poll x.1 = (none, d)))

/-- An owner waits for another: the row that it awaits is locked by the other. -/
def WaitsFor (d : Desk) (o p : Owner) : Prop :=
  ∃ a l, d.awaits o = some a ∧ d.bank.locks.get? a = some l ∧ l.holder = p

/-- The next call of a transfer that has been given the lock that it awaits is answered. -/
theorem Sound.answered (h : d.Sound spent) {run : Run} (hr : (n, .transfer run) ∈ d.pending)
    (ha : (Request.transfer run).awaits? = some a) (hl : d.bank.locks.get? a = some l)
    (hh : l.holder = .call n) : ((Bank.store (.call n)).answer run d.bank).1.isSome := by
  have hfault := (h.parked hr).2
  rw [Request.awaits?_transfer] at ha
  unfold Store.answer
  rw [hfault]
  obtain ⟨request, faults, stage, answered⟩ := run
  cases stage with
  | adjustingFirst transfer debit credit =>
      obtain rfl := Option.some.inj ha
      exact Bank.addBalance_of_given hl hh _
  | adjustingSecond transfer debit credit first =>
      obtain rfl := Option.some.inj ha
      exact Bank.addBalance_of_given hl hh _
  | _ => cases ha

/-- A call that has been given the lock that it awaits gets further. -/
theorem Sound.gets_further (h : d.Sound spent) (hr : (n, r) ∈ d.pending)
    (ha : r.awaits? = some a) (hl : d.bank.locks.get? a = some l) (hh : l.holder = r.owner n) :
    d.attempt n r ≠ (none, d) := by
  intro hsame
  have hreply : (r.proceed n d.bank).1 = none := by
    rw [← attempt_reply, hsame]
  cases r with
  | addBalance unit account delta =>
      obtain rfl := Option.some.inj ha
      have hgiven : (d.bank.addBalance (.unit unit) account delta).1.isSome :=
        Bank.addBalance_of_given hl hh delta
      simp only [Request.proceed, Option.map_eq_none_iff] at hreply
      rw [hreply] at hgiven
      cases hgiven
  | updateAccount account balance =>
      obtain rfl := Option.some.inj ha
      have hgiven : (d.bank.updateAccount (.call n) account balance).1.isSome :=
        Bank.updateAccount_of_given hl hh balance
      simp only [Request.proceed, Option.map_eq_none_iff] at hreply
      rw [hreply] at hgiven
      cases hgiven
  | deleteAccount account =>
      obtain rfl := Option.some.inj ha
      have hgiven : (d.bank.deleteAccount (.call n) account).1.isSome :=
        Bank.deleteAccount_of_given hl hh
      simp only [Request.proceed, Option.map_eq_none_iff] at hreply
      rw [hreply] at hgiven
      cases hgiven
  | transfer run =>
      -- The transfer may wait again, but then for its other row.
      have hrun := (Bank.store (.call n)).run_answered run d.bank (h.answered hr ha hl hh)
      unfold Desk.attempt at hsame
      dsimp only at hsame
      generalize (Bank.store (.call n)).run run d.bank = x at hrun hsame
      obtain ⟨run' | ⟨outcome, made⟩, bank⟩ := x
      · have hdesk := (Prod.mk.inj hsame).2
        have hmem : (n, .transfer run') ∈ d.pending := by
          rw [← hdesk]
          exact mem_park.2 (.inl ⟨rfl, rfl⟩)
        obtain rfl := Request.transfer.inj (h.distinct.eq hr hmem)
        exact lt_irrefl _ hrun
      · cases (Prod.mk.inj hsame).1

/-! ## Who waits for whom -/

/-- Whoever waits when nobody gets any further has not been given the lock. -/
theorem Sound.holder_ne (h : d.Sound spent) (hs : d.Stuck) (ha : d.awaits o = some a)
    (hl : d.bank.locks.get? a = some l) : l.holder ≠ o := by
  intro hh
  obtain ⟨n, r, hr, rfl, hra⟩ := (awaits_eq_some_iff h.distinct).1 ha
  refine h.gets_further hr hra hl hh ?_
  rw [← poll_of_mem h.distinct hr]
  exact hs _ hr

/-- Whoever waits when nobody gets any further waits for somebody who has locked the row. -/
theorem Sound.waitsFor (h : d.Sound spent) (hs : d.Stuck) (ha : d.awaits o = some a) :
    ∃ p, d.WaitsFor o p ∧ a ∈ d.bank.heldBy p := by
  obtain ⟨-, l, hl, -⟩ := h.bank.locking.asked ha
  refine ⟨l.holder, ⟨a, l, ha, hl, rfl⟩, (h.bank.locking.holder hl).resolve_right fun hasked => ?_⟩
  exact h.holder_ne hs hasked hl rfl

theorem Sound.mem_heldBy_of_waitsFor (h : d.Sound spent) (hs : d.Stuck) (ha : d.awaits o = some a)
    (hw : d.WaitsFor o p) : a ∈ d.bank.heldBy p := by
  obtain ⟨a', l, ha', hl, rfl⟩ := hw
  obtain rfl := Option.some.inj (ha.symm.trans ha')
  refine (h.bank.locking.holder hl).resolve_right fun hasked => ?_
  exact h.holder_ne hs hasked hl rfl

/-- **A transfer that has locked a row while it waits** waits for a row with a greater number. -/
theorem Sound.ascending (h : d.Sound spent) (ha : a ∈ d.bank.heldBy (.call m)) :
    ∃ run a', (m, .transfer run) ∈ d.pending ∧ d.awaits (.call m) = some a' ∧ a < a' := by
  obtain ⟨run, hrun⟩ := h.calls (Bank.isOpen_of_mem_heldBy ha)
  obtain ⟨hcarries, -⟩ := h.parked hrun
  obtain ⟨a', ha'⟩ := Option.isSome_iff_exists.1 (h.waits hrun)
  have hawaits : d.awaits (.call m) = some a' := (awaits_of_mem h.distinct hrun).trans ha'
  refine ⟨run, a', hrun, hawaits, ?_⟩
  rw [Request.awaits?_transfer] at ha'
  have hnot := (h.bank.locking.asked hawaits).1
  -- A transfer waits in one of two stages, and only in the second has it locked a row.
  cases hstage : run.stage with
  | adjustingFirst transfer debit credit =>
      rw [hstage] at hcarries
      rw [hcarries.locked rfl] at ha
      cases ha
  | adjustingSecond transfer debit credit first =>
      rw [hstage] at hcarries ha'
      rw [hcarries.locked rfl] at ha hnot
      obtain rfl := List.mem_singleton.1 ha
      obtain rfl := Option.some.inj ha'
      exact lt_of_le_of_ne run.request.adjustments_ordered fun e =>
        hnot (List.mem_singleton.2 e.symm)
  | _ =>
      rw [hstage] at ha'
      cases ha'

/-- **Waiting ends at a unit of work with a name.** -/
theorem Sound.reaches_unit (h : d.Sound spent) (hs : d.Stuck) (ha : d.awaits o = some a) :
    ∃ u, d.bank.IsOpen (.unit u) ∧ d.bank.heldBy (.unit u) ≠ [] ∧
      Relation.TransGen d.WaitsFor o (.unit u) := by
  obtain ⟨bound, hbound⟩ := d.bank.locks.exists_bound
  -- The awaited numbers increase from transfer to transfer, but not beyond all locks.
  induction hgap : (bound - a).toNat using Nat.strong_induction_on generalizing o a with
  | _ gap ih =>
      obtain ⟨p, hw, hheld⟩ := h.waitsFor hs ha
      cases p with
      | unit u =>
          exact ⟨u, Bank.isOpen_of_mem_heldBy hheld, List.ne_nil_of_mem hheld, .single hw⟩
      | call m =>
          obtain ⟨run, a', -, ha', hlt⟩ := h.ascending hheld
          obtain ⟨-, l, hl, -⟩ := h.bank.locking.asked ha'
          have hle := hbound hl
          obtain ⟨u, hopen, hlocked, hpath⟩ := ih (bound - a').toNat (by omega) ha' rfl
          exact ⟨u, hopen, hlocked, .head hw hpath⟩

/-- Along waits from call to call the awaited numbers increase. -/
theorem Sound.awaits_lt (h : d.Sound spent) (hs : d.Stuck) {a' : Int}
    (hpath : Relation.TransGen (fun n m => d.WaitsFor (.call n) (.call m)) n m)
    (ha : d.awaits (.call n) = some a) (ha' : d.awaits (.call m) = some a') : a < a' := by
  -- Each wait leads to a transfer that holds the awaited row and waits for a greater one.
  have hstep : ∀ {i j c}, d.WaitsFor (.call i) (.call j) → d.awaits (.call i) = some c →
      ∃ c', d.awaits (.call j) = some c' ∧ c < c' := by
    intro i j c hw hc
    obtain ⟨run, c', -, hc', hlt⟩ := h.ascending (h.mem_heldBy_of_waitsFor hs hc hw)
    exact ⟨c', hc', hlt⟩
  induction hpath generalizing a' with
  | single hw =>
      obtain ⟨c, hc, hlt⟩ := hstep hw ha
      obtain rfl := Option.some.inj (hc.symm.trans ha')
      exact hlt
  | tail hpath hw ih =>
      have hwaits := hw
      obtain ⟨c, l, hc, -⟩ := hwaits
      obtain ⟨c', hc', hlt⟩ := hstep hw hc
      obtain rfl := Option.some.inj (hc'.symm.trans ha')
      exact (ih hc).trans hlt

/-- **Only units of work with a name keep others waiting** when no pending call gets any further. -/
structure WaitsOnUnits (d : Desk) : Prop where
  /-- From every pending call the waiting leads to an open unit of work that has locked a row. -/
  reaches : ∀ {n r}, (n, r) ∈ d.pending → ∃ u, d.bank.IsOpen (.unit u) ∧
    d.bank.heldBy (.unit u) ≠ [] ∧ Relation.TransGen d.WaitsFor (r.owner n) (.unit u)
  /-- A call for which somebody waits is a transfer, and waits for a row with a greater number. -/
  ascending : ∀ {o m a}, d.awaits o = some a → d.WaitsFor o (.call m) →
    ∃ run a', (m, .transfer run) ∈ d.pending ∧ d.awaits (.call m) = some a' ∧ a < a'
  /-- Nobody waits for itself. -/
  notSelf : ∀ o, ¬ d.WaitsFor o o
  /-- Calls never wait for each other in a circle. -/
  acyclic : ∀ n, ¬ Relation.TransGen (fun n m => d.WaitsFor (.call n) (.call m)) n n
  /-- Nothing is pending unless a unit of work with a name has locked a row. -/
  idle : (∀ u, d.bank.heldBy (.unit u) = []) → d.pending = []

/-- **Transfers and statements about single accounts do not block each other.** Nobody ever waits
for a row that it has locked itself, and when nobody gets any further the waiting is for units of
work. -/
theorem Reachable.waitsOnUnits (h : d.Reachable nonNegative) :
    (∀ o a, d.awaits o = some a → a ∉ d.bank.heldBy o) ∧ (d.Stuck → d.WaitsOnUnits) := by
  have hsound := h.sound
  have hself : ∀ o a, d.awaits o = some a → a ∉ d.bank.heldBy o := fun o a ha =>
    (hsound.bank.locking.asked ha).1
  refine ⟨hself, fun hs => ?_⟩
  have hreaches : ∀ {n r}, (n, r) ∈ d.pending → ∃ u, d.bank.IsOpen (.unit u) ∧
      d.bank.heldBy (.unit u) ≠ [] ∧ Relation.TransGen d.WaitsFor (r.owner n) (.unit u) := by
    intro n r hr
    obtain ⟨a, ha⟩ := Option.isSome_iff_exists.1 (hsound.waits hr)
    exact hsound.reaches_unit hs ((awaits_of_mem hsound.distinct hr).trans ha)
  exact
    { reaches := hreaches
      ascending := by
        intro o m a ha hw
        exact hsound.ascending (hsound.mem_heldBy_of_waitsFor hs ha hw)
      notSelf := by
        intro o hw
        have hwaits := hw
        obtain ⟨a, l, ha, -⟩ := hwaits
        exact hself o a ha (hsound.mem_heldBy_of_waitsFor hs ha hw)
      acyclic := by
        intro n hcycle
        -- A call in a circle would await a row with a number greater than that row has.
        have hawaits : ∃ a, d.awaits (.call n) = some a := by
          obtain ⟨m, ⟨a, l, ha, -⟩, -⟩ := Relation.TransGen.head'_iff.1 hcycle
          exact ⟨a, ha⟩
        obtain ⟨a, ha⟩ := hawaits
        exact lt_irrefl a (hsound.awaits_lt hs hcycle ha ha)
      idle := by
        intro hidle
        rw [List.eq_nil_iff_forall_not_mem]
        rintro ⟨n, r⟩ hx
        obtain ⟨u, -, hlocked, -⟩ := hreaches hx
        exact hlocked (hidle u) }

/-- Two transfers in opposite directions and the deletion of an account wait for a unit of work. -/
theorem Reachable.waitsOnUnits_contended :
    let d := (Desk.opening true).afterAll [.command (.createAccount ⟨"a", 100, .usd⟩),
      .command (.createAccount ⟨"b", 50, .usd⟩), .command (.begin "u"),
      .command (.onUnit "u" (.addBalance 2 7)), .command (.transfer ⟨1, 2, 30⟩ []),
      .command (.transfer ⟨2, 1, 20⟩ []), .command (.deleteAccount 1)]
    (d.Reachable true ∧ d.Stuck ∧ d.pending.map Prod.fst = [4, 5, 6]) ∧ d.WaitsOnUnits :=
  have hstuck : Desk.Stuck _ := by decide +kernel
  ⟨⟨Reachable.opening.afterAll _, hstuck, by decide +kernel⟩,
    (Reachable.opening.afterAll _).waitsOnUnits.2 hstuck⟩

end Desk

end DoubleEntry
