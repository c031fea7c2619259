import DoubleEntry.Proofs.Attempt
import DoubleEntry.Proofs.Erasure
set_option autoImplicit false

/-! # All or nothing

A transfer takes effect as a whole or not at all. As long as it has not been carried out, none of
its steps is seen by anybody, and when it ends without having been carried out nothing is left of it
but used numbers: its locks are handed on, its pins are taken off, and the rows that it has locked
are as they were when it locked them (`Desk.AllOrNothing`).
-/

namespace DoubleEntry

namespace Bank

/-- The numbers that were drawn from one bank to another. -/
def drawn (b b' : Bank) : Spent where
  transfer i := b.nextTransfer ≤ i ∧ i < b'.nextTransfer
  entry i := b.nextEntry ≤ i ∧ i < b'.nextEntry

/-- Nobody but one owner can commit transfers and entries with certain numbers. -/
structure Retains (b : Bank) (o : Owner) (numbers : Spent) : Prop where
  transfer : ∀ {i}, numbers.transfer i →
    Retained Transfer.id b.transfers b.nextTransfer (fun p => (b.work p).transfers) o i
  entry : ∀ {i}, numbers.entry i →
    Retained Entry.id b.entries b.nextEntry (fun p => (b.work p).entries) o i

variable {spent numbers : Spent} {b b' : Bank} {o : Owner} {awaits awaits' : Owner → Option Int}
  {a : Int} {r : Row}

/-- The numbers that an owner draws within its own unit of work are its own. -/
theorem Within.retains_drawn (h : b.Within o b') (hf : b.Fresh spent) :
    b'.Retains o (b.drawn b') where
  transfer hi := by
    rw [h.transfers]
    exact hf.transfers.retained_of_drawn hi.1 hi.2 fun hp => by rw [h.work hp]
  entry hi := by
    rw [h.entries]
    exact hf.entries.retained_of_drawn hi.1 hi.2 fun hp => by rw [h.work hp]

theorem Within.retains (h : b.Within o b') (hr : b.Retains o numbers) : b'.Retains o numbers where
  transfer hi := by
    rw [h.transfers]
    exact (hr.transfer hi).of_same h.nextTransfer fun hp => by rw [h.work hp]
  entry hi := by
    rw [h.entries]
    exact (hr.entry hi).of_same h.nextEntry fun hp => by rw [h.work hp]

/-- What others do takes no number away from an owner. -/
theorem Keeps.retains (h : b.Keeps o b') (hf : b'.Fresh b.usedUp) (hr : b.Retains o numbers) :
    b'.Retains o numbers where
  transfer hi := by
    rcases (hr.transfer hi).staged_or_unused with ⟨x, hx, rfl⟩ | hunused
    · exact hf.transfers.retained_of_staged (by rwa [h.transfers])
    · exact hf.transfers.retained_of_spent hunused o
  entry hi := by
    rcases (hr.entry hi).staged_or_unused with ⟨x, hx, rfl⟩ | hunused
    · exact hf.entries.retained_of_staged (by rwa [h.entries])
    · exact hf.entries.retained_of_spent hunused o

/-! ## Rows that an owner locks -/

/-- A row that an owner locks was locked by nobody, so that its two versions were the same. -/
theorem Within.newly_locked (h : b.Within o b') (hb : b.Sound awaits) (hb' : b'.Sound awaits')
    (ha : a ∈ b'.heldBy o) (hn : a ∉ b.heldBy o) :
    ∃ row, b.accounts.get? a = some row ∧ row.working = row.committed := by
  obtain ⟨g, hg, rfl⟩ := List.mem_map.1 ha
  obtain ⟨r', hr', -⟩ := hb'.settled.prior hg
  -- Nothing was committed meanwhile, so the row was there before.
  have hcommitted : (b.accounts.get? g.account).map Row.committed = some r'.committed := by
    rw [← get?_ledger, ← h.ledger, get?_ledger, hr']
    rfl
  obtain ⟨row, hrow, -⟩ := Option.map_eq_some_iff.1 hcommitted
  refine ⟨row, hrow, hb.settled.clean hrow fun p hp => ?_⟩
  by_cases hpo : p = o
  · exact hn (hpo ▸ hp)
  · have hp' : g.account ∈ b'.heldBy p := by
      rw [h.heldBy hpo]
      exact hp
    exact hpo (hb'.locking.owner_eq hp' ha)

theorem Keeps.committed (h : b.Keeps o b') (ha : a ∈ b.heldBy o) :
    (b'.accounts.get? a).map Row.committed = (b.accounts.get? a).map Row.committed := by
  have hv := congrArg (Option.map Prod.fst) (h.versions a ha)
  rwa [Option.map_map, Option.map_map] at hv

theorem Within.committed (h : b.Within o b') (a : Int) :
    (b'.accounts.get? a).map Row.committed = (b.accounts.get? a).map Row.committed := by
  rw [← get?_ledger, ← get?_ledger, h.ledger]

/-- When an owner gives everything up, the working copies of the rows that it had locked are the
committed versions again. -/
theorem Within.restored (h : b.Within o b') (hb : b.Sound awaits) (ho : ¬ b'.IsOpen o)
    (ha : a ∈ b.heldBy o) (hr : b.accounts.get? a = some r) :
    ∃ r', b'.accounts.get? a = some r' ∧ r'.working = r.committed ∧
      r'.committed = r.committed := by
  have hrows := h.rows a
  rw [work_of_not_isOpen ho, hr, Option.map_some, Option.map_eq_some_iff] at hrows
  obtain ⟨r', hr', he⟩ := hrows
  rw [Row.without_empty] at he
  subst he
  exact ⟨_, hr', hb.settled.restored_eq (hb.locking.once o) hr ha, rfl⟩

end Bank

namespace Desk

variable {nonNegative : Bool} {spent numbers : Spent} {d d' : Desk} {k : Nat} {t : NewTransfer}
  {faults : List Fault} {es past future : List Event} {e : Event} {a : Int}

/-! ## The course of a transfer -/

/-- A transfer that is not carried out as long as the given events happen. -/
def Incomplete (k : Nat) : Desk → List Event → Prop
  | _, [] => True
  | d, e :: es => (d.ending? k e).bind Ending.receipt? = none ∧ Incomplete k (d.after e) es

/-- After it was started, every event is a step of the transfer or leaves it alone. -/
theorem Reachable.course (h : d.Reachable nonNegative)
    (hrun : .command (.transfer t faults) :: es = past ++ e :: future) :
    (past = [] ∧ e = .command (.transfer t faults)) ∨ (d.afterAll past).Has d.next t := by
  cases past with
  | nil => exact .inl ⟨rfl, (List.cons.inj hrun).1.symm⟩
  | cons x past =>
      obtain ⟨rfl, -⟩ := List.cons.inj hrun
      exact .inr ((h.sound.has_start t faults).afterAll past)

theorem Reachable.ownStep_or (h : d.Reachable nonNegative)
    (hrun : .command (.transfer t faults) :: es = past ++ e :: future) :
    (d.afterAll past).OwnStep d.next t e ∨
      (.call d.next : Owner) ≠ (d.afterAll past).actor e := by
  rcases h.course hrun with ⟨rfl, rfl⟩ | hk
  · exact .inl (.inl ⟨rfl, faults, rfl⟩)
  · exact hk.ownStep_or e

theorem Reachable.ownStep_of_ending (h : d.Reachable nonNegative)
    (hrun : .command (.transfer t faults) :: es = past ++ e :: future) {ending : Ending}
    (he : (d.afterAll past).ending? d.next e = some ending) :
    (d.afterAll past).OwnStep d.next t e := by
  rcases h.course hrun with ⟨rfl, rfl⟩ | hk
  · exact .inl ⟨rfl, faults, rfl⟩
  · exact hk.ownStep_of_ending he

/-- As long as a transfer is not carried out, nobody can commit what it has numbered. -/
theorem Reachable.retains (h : d.Reachable nonNegative) (hk : d.Has k t)
    (hr : d.bank.Retains (.call k) numbers) (hes : d.Incomplete k es) :
    (d.afterAll es).bank.Retains (.call k) numbers := by
  -- Induction on what happens: the numbers are kept by each step of the transfer and of others.
  induction es generalizing d with
  | nil => exact hr
  | cons e es ih =>
      refine ih (h.after e) (hk.after e) ?_ hes.2
      rcases hk.ownStep_or e with hstep | hactor
      · exact ((h.sound.moved hstep).within hes.1).retains hr
      · exact (h.sound.keeps_after e hactor).retains (h.sound_afterAll [e]).fresh hr

/-- At some step an owner locked a row that nobody had locked; the row was then as given. -/
def Locked (d : Desk) (o : Owner) (past : List Event) (a : Int) (row : Row) : Prop :=
  ∃ before step between, past = before ++ step :: between ∧
    a ∉ (d.afterAll before).bank.heldBy o ∧ a ∈ ((d.afterAll before).after step).bank.heldBy o ∧
    (d.afterAll before).bank.accounts.get? a = some row ∧ row.working = row.committed

theorem Locked.concat {o : Owner} {row : Row} (h : d.Locked o past a row) (x : Event) :
    d.Locked o (past ++ [x]) a row := by
  obtain ⟨before, step, between, rfl, hlocked⟩ := h
  exact ⟨before, step, between ++ [x], by simp, hlocked⟩

/-- **A row that a transfer has locked** has still the committed version that it had then. -/
theorem Reachable.locked_since (h : d.Reachable nonNegative)
    (hrun : .command (.transfer t faults) :: es = past ++ e :: future)
    (ha : a ∈ (d.afterAll past).bank.heldBy (.call d.next)) :
    ∃ row, d.Locked (.call d.next) past a row ∧
      ((d.afterAll past).bank.accounts.get? a).map Row.committed = some row.committed := by
  -- Induction on the last event: the row was locked at it or before.
  induction past using List.reverseRecOn generalizing e future with
  | nil =>
      rw [show d.afterAll [] = d from rfl, Bank.heldBy_of_not_isOpen h.sound.closed_of_new] at ha
      cases ha
  | append_singleton past x ih =>
      rw [List.append_assoc] at hrun
      have hbefore := h.afterAll past
      rw [show d.afterAll (past ++ [x]) = (d.afterAll past).after x from
        d.afterAll_append past [x]] at ha ⊢
      have hold : a ∈ (d.afterAll past).bank.heldBy (.call d.next) →
          (((d.afterAll past).after x).bank.accounts.get? a).map Row.committed =
            ((d.afterAll past).bank.accounts.get? a).map Row.committed →
          ∃ row, d.Locked (.call d.next) (past ++ [x]) a row ∧
            (((d.afterAll past).after x).bank.accounts.get? a).map Row.committed =
              some row.committed := by
        intro hheld hsame
        obtain ⟨row, hlocked, hnow⟩ := ih hrun hheld
        exact ⟨row, hlocked.concat x, hsame.trans hnow⟩
      rcases h.ownStep_or hrun with hstep | hactor
      · have hmoved := hbefore.sound.moved hstep
        cases hreceipt : ((d.afterAll past).ending? d.next x).bind Ending.receipt? with
        | none =>
            have hw := hmoved.within hreceipt
            by_cases hheld : a ∈ (d.afterAll past).bank.heldBy (.call d.next)
            · exact hold hheld (hw.committed a)
            · obtain ⟨row, hrow, hclean⟩ :=
                hw.newly_locked hbefore.sound.bank (hbefore.after x).sound.bank ha hheld
              refine ⟨row, ⟨past, x, [], rfl, hheld, ha, hrow, hclean⟩, ?_⟩
              rw [hw.committed, hrow]
              rfl
        | some receipt =>
            -- A transfer that was carried out has locked nothing any more.
            have hclosed := (hmoved.completed hreceipt).2.2.2
            rw [Bank.heldBy_of_not_isOpen hclosed] at ha
            cases ha
      · have hk := hbefore.sound.keeps_after x hactor
        rw [hk.heldBy] at ha
        exact hold ha (hk.committed ha)

/-! ## The end of a transfer -/

/-- **Nothing is left of a call** that has ended between two desks, but used numbers: it is not
pending, it has no open unit of work, it holds no lock and waits for none, and the bank is as it was
without it. -/
structure Released (k : Nat) (d d' : Desk) : Prop where
  pending : d'.pending = d.pending.filter fun p => p.1 ≠ k
  closed : ¬ d'.bank.IsOpen (.call k)
  unlocked : ∀ {a l}, d'.bank.locks.get? a = some l → l.holder ≠ .call k ∧ .call k ∉ l.waiting
  /-- Every pin is that of an open unit of work. -/
  pins : ∀ {a r}, d'.bank.accounts.get? a = some r → r.pins = d'.bank.pinned.count a
  bank : d'.bank = { d.bank.without (.call k) with
    nextEntry := d'.bank.nextEntry, nextTransfer := d'.bank.nextTransfer }

theorem Reachable.released (h' : d'.Reachable nonNegative) (hw : d.bank.Within (.call k) d'.bank)
    (hpending : d'.pending = d.pending.filter fun p => p.1 ≠ k) : d.Released k d' := by
  have hgone : ∀ {r}, (k, r) ∉ d'.pending := by
    intro r hr
    rw [hpending, List.mem_filter] at hr
    simp at hr
  -- An open unit of work of a call would belong to a pending transfer.
  have hclosed : ¬ d'.bank.IsOpen (.call k) := fun ho => by
    obtain ⟨run, hrun⟩ := h'.sound.calls ho
    exact hgone hrun
  have hawaits : d'.awaits (.call k) = none := by
    refine awaits_of_idle fun {m s} hs e => ?_
    by_cases hm : m = k
    · exact hgone (hm ▸ hs)
    · exact Request.call_ne_owner (Ne.symm hm) s e.symm
  exact ⟨hpending, hclosed, fun hl => h'.sound.bank.not_locking hclosed hawaits hl,
    fun hr => h'.sound.bank.anchored.pins hr, hw.eq_without h'.sound.bank hclosed hawaits⟩

/-- **All or nothing.** This holds at an event of a run in which the transfer `t` is started first,
at the desk `d`; `past` are the events before, and `future` those that follow. -/
structure AllOrNothing (d : Desk) (t : NewTransfer) (past : List Event) (e : Event)
    (future : List Event) : Prop where
  /-- If the transfer is carried out, its rows and both balances become visible at once. -/
  published : ∀ {receipt},
    (d.afterAll past).ending? d.next e = some (.answered (.completed receipt)) →
    receipt.Fits t ∧
    (d.afterAll past).bank.ledger.Allows (d.afterAll past).bank.nonNegative
      (.committed (receipt.deeds t)) ∧
    ((d.afterAll past).after e).bank.ledger =
      (d.afterAll past).bank.ledger.apply (.committed (receipt.deeds t))
  /-- Every other step of the transfer changes nothing that can be seen. -/
  unseen : (d.afterAll past).OwnStep d.next t e →
    ((d.afterAll past).ending? d.next e).bind Ending.receipt? = none →
    ((d.afterAll past).after e).bank.ledger = (d.afterAll past).bank.ledger ∧
    ∀ q, ((d.afterAll past).after e).bank.answer q = (d.afterAll past).bank.answer q
  /-- The rows to which it gave a number are never seen as long as it is not carried out. -/
  hidden : (d.afterAll past).OwnStep d.next t e →
    (d.afterAll past).Incomplete d.next (e :: future) →
    (∀ i, (d.afterAll past).bank.nextTransfer ≤ i →
      i < ((d.afterAll past).after e).bank.nextTransfer →
      (((d.afterAll past).after e).afterAll future).bank.getTransfer i = none) ∧
    ∀ i, (d.afterAll past).bank.nextEntry ≤ i →
      i < ((d.afterAll past).after e).bank.nextEntry →
      (((d.afterAll past).after e).afterAll future).bank.getEntry i = none
  /-- If it ends in any other way, nothing is left of it. -/
  released : ∀ {ending}, (d.afterAll past).ending? d.next e = some ending →
    ending.receipt? = none → (d.afterAll past).Released d.next ((d.afterAll past).after e)
  /-- The rows that it has locked keep the committed version that they had when it locked them, and
  if it ends in any other way they are then as they were. -/
  restored : ∀ {a}, a ∈ (d.afterAll past).bank.heldBy (.call d.next) →
    ∃ row, d.Locked (.call d.next) past a row ∧
      ((d.afterAll past).bank.accounts.get? a).map Row.committed = some row.committed ∧
      ∀ {ending}, (d.afterAll past).ending? d.next e = some ending → ending.receipt? = none →
        ∃ row', ((d.afterAll past).after e).bank.accounts.get? a = some row' ∧
          row'.working = row.working ∧ row'.committed = row.committed

/-- The end of a transfer that was not carried out. -/
theorem Reachable.ended (h : d.Reachable nonNegative)
    (hrun : .command (.transfer t faults) :: es = past ++ e :: future) {ending : Ending}
    (he : (d.afterAll past).ending? d.next e = some ending) (hreceipt : ending.receipt? = none) :
    (d.afterAll past).bank.Within (.call d.next) ((d.afterAll past).after e).bank ∧
      ((d.afterAll past).after e).pending =
        (d.afterAll past).pending.filter fun p => p.1 ≠ d.next := by
  have hmoved := (h.afterAll past).sound.moved (h.ownStep_of_ending hrun he)
  rw [he] at hmoved
  rcases ending with ⟨⟨receipt⟩ | error | _⟩ | _
  · cases hreceipt
  · exact hmoved
  · exact hmoved
  · exact hmoved

/-- **A transfer takes effect as a whole or not at all,** wherever it fails or is given up, and
whatever else happens meanwhile. -/
theorem Reachable.all_or_nothing (h : d.Reachable nonNegative)
    (hrun : .command (.transfer t faults) :: es = past ++ e :: future) :
    d.AllOrNothing t past e future := by
  have hbefore := h.afterAll past
  have hafter := hbefore.after e
  exact
    { published := by
        intro receipt he
        have hmoved := hbefore.sound.moved (h.ownStep_of_ending hrun he)
        rw [he] at hmoved
        obtain ⟨hfits, hallowed, hledger, -⟩ := hmoved.completed rfl
        exact ⟨hfits, hallowed, hledger⟩
      unseen := by
        intro hstep hreceipt
        have hw := (hbefore.sound.moved hstep).within hreceipt
        exact ⟨hw.ledger, fun q => Bank.answer_of_ledger hw.ledger q⟩
      hidden := by
        intro hstep hfuture
        have hw := (hbefore.sound.moved hstep).within hfuture.1
        have hk : ((d.afterAll past).after e).Has d.next t := by
          rcases h.course hrun with ⟨rfl, rfl⟩ | hk
          · exact h.sound.has_start t faults
          · exact hk.after e
        -- The numbers that are drawn at this step stay the transfer's own from then on.
        have hretains := hafter.retains hk (hw.retains_drawn hbefore.sound.fresh) hfuture.2
        exact ⟨fun i hle hlt => (hretains.transfer ⟨hle, hlt⟩).row,
          fun i hle hlt => (hretains.entry ⟨hle, hlt⟩).row⟩
      released := by
        intro ending he hreceipt
        obtain ⟨hw, hpending⟩ := h.ended hrun he hreceipt
        exact hafter.released hw hpending
      restored := by
        intro a ha
        obtain ⟨row, hlocked, hnow⟩ := h.locked_since hrun ha
        refine ⟨row, hlocked, hnow, fun he hreceipt => ?_⟩
        obtain ⟨hw, hpending⟩ := h.ended hrun he hreceipt
        obtain ⟨r, hr, hcommitted⟩ := Option.map_eq_some_iff.1 hnow
        obtain ⟨row', hrow', hworking, hcommitted'⟩ :=
          hw.restored hbefore.sound.bank (hafter.released hw hpending).closed ha hr
        have hclean : row.working = row.committed := by
          obtain ⟨before, step, between, -, -, -, -, hclean⟩ := hlocked
          exact hclean
        refine ⟨row', hrow', ?_, hcommitted'.trans hcommitted⟩
        calc row'.working = r.committed := hworking
          _ = row.committed := hcommitted
          _ = row.working := hclean.symm }

/-- A transfer that has locked one row waits for another, which a unit of work has locked, and is
cancelled. -/
theorem Reachable.all_or_nothing_cancelled :
    let d := (Desk.opening true).afterAll [.command (.createAccount ⟨"a", 100, .usd⟩),
      .command (.createAccount ⟨"b", 50, .usd⟩), .command (.begin "u"),
      .command (.onUnit "u" (.addBalance 2 7))]
    let start := Event.command (.transfer ⟨1, 2, 30⟩ [])
    (d.Reachable true ∧ (d.afterAll [start]).bank.heldBy (.call d.next) = [1] ∧
      (d.afterAll [start]).ending? d.next (.cancel 4) = some .cancelled) ∧
    d.AllOrNothing ⟨1, 2, 30⟩ [start] (.cancel 4) [.poll 4] :=
  ⟨⟨Reachable.opening.afterAll _, by decide +kernel, by decide +kernel⟩,
    (Reachable.opening.afterAll _).all_or_nothing rfl⟩

end Desk

end DoubleEntry
