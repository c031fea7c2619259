import DoubleEntry.Proofs.Proceeding
set_option autoImplicit false

/-! # Sound desks

A desk is sound when its bank is, with each pending call waiting for one row and everything that
calls have in flight belonging to a pending call (`Desk.Sound`). This module shows that a desk stays
sound when a call is left waiting or forgotten and when a command is carried out at once.
-/

namespace DoubleEntry

open Function (update update_self update_of_ne)

namespace Desk

variable {spent : Spent} {d : Desk} {n m : Nat} {r s : Request} {o : Owner} {a : Int} {bank : Bank}

/-- The row that an owner waits for. -/
def awaits (d : Desk) (o : Owner) : Option Int :=
  (d.pending.find? fun p => p.2.owner p.1 = o).bind fun p => p.2.awaits?

/-- Pending calls are told apart by their numbers, and by their owners. -/
structure Distinct (pending : List (Nat × Request)) : Prop where
  numbers : (pending.map Prod.fst).Nodup
  owners : ∀ {n r m s}, (n, r) ∈ pending → (m, s) ∈ pending → r.owner n = s.owner m → n = m

theorem Distinct.eq {pending : List (Nat × Request)} (h : Distinct pending)
    (hr : (n, r) ∈ pending) (hs : (n, s) ∈ pending) : r = s := by
  induction pending with
  | nil => cases hr
  | cons x rest ih =>
      have hn := h.numbers
      rw [List.map_cons, List.nodup_cons] at hn
      have hfst : ∀ {q : Request}, (n, q) ∈ rest → n ∈ rest.map Prod.fst := fun hq =>
        List.mem_map.2 ⟨_, hq, rfl⟩
      -- A number occurs once, so both calls stand at the head or both behind it.
      rcases List.mem_cons.1 hr with rfl | hr' <;> rcases List.mem_cons.1 hs with hs' | hs'
      · exact (Prod.mk.inj hs').2.symm
      · exact absurd (hfst hs') hn.1
      · obtain rfl := hs'
        exact absurd (hfst hr') hn.1
      · exact ih ⟨hn.2, fun hr hs => h.owners (List.mem_cons_of_mem _ hr)
          (List.mem_cons_of_mem _ hs)⟩ hr' hs'

theorem lookup_eq_some_iff (h : Distinct d.pending) :
    d.pending.lookup n = some r ↔ (n, r) ∈ d.pending := by
  constructor
  · intro hl
    obtain ⟨l, l', heq, -⟩ := List.lookup_eq_some_iff.1 hl
    simp [heq]
  · intro hmem
    cases hl : d.pending.lookup n with
    | none =>
        rw [List.lookup_eq_none_iff] at hl
        exact absurd (hl _ hmem) (by simp)
    | some s =>
        obtain ⟨l, l', heq, -⟩ := List.lookup_eq_some_iff.1 hl
        rw [h.eq hmem (by simp [heq] : (n, s) ∈ d.pending)]

theorem awaits_eq_some_iff (h : Distinct d.pending) :
    d.awaits o = some a ↔ ∃ n r, (n, r) ∈ d.pending ∧ r.owner n = o ∧ r.awaits? = some a := by
  unfold awaits
  rw [Option.bind_eq_some_iff]
  constructor
  · rintro ⟨⟨n, r⟩, hfind, ha⟩
    exact ⟨n, r, List.mem_of_find?_eq_some hfind, by simpa using List.find?_some hfind, ha⟩
  · rintro ⟨n, r, hmem, ho, ha⟩
    cases hfind : d.pending.find? fun p => p.2.owner p.1 = o with
    | none =>
        rw [List.find?_eq_none] at hfind
        exact absurd ho (by simpa using hfind _ hmem)
    | some p =>
        obtain ⟨m, s⟩ := p
        have hmem' := List.mem_of_find?_eq_some hfind
        have ho' : s.owner m = o := by simpa using List.find?_some hfind
        obtain rfl := h.owners hmem hmem' (ho.trans ho'.symm)
        rw [h.eq hmem hmem'] at ha
        exact ⟨_, rfl, ha⟩

theorem awaits_of_mem (h : Distinct d.pending) (hr : (n, r) ∈ d.pending) :
    d.awaits (r.owner n) = r.awaits? := by
  apply Option.ext
  intro a
  rw [awaits_eq_some_iff h]
  constructor
  · rintro ⟨m, s, hs, ho, ha⟩
    obtain rfl := h.owners hs hr ho
    rwa [h.eq hr hs]
  · exact fun ha => ⟨n, r, hr, rfl, ha⟩

theorem awaits_of_idle (h : ∀ {m s}, (m, s) ∈ d.pending → s.owner m ≠ o) : d.awaits o = none := by
  unfold awaits
  rw [Option.bind_eq_none_iff]
  intro p hp
  exact absurd (by simpa using List.find?_some hp) (h (List.mem_of_find?_eq_some hp))

/-! ## Leaving calls waiting, and forgetting them -/

theorem mem_park : (m, s) ∈ (d.park n r).pending ↔
    m = n ∧ s = r ∨ m ≠ n ∧ (m, s) ∈ d.pending := by
  unfold park
  cases hl : d.pending.lookup n with
  | none =>
      -- The call is new and is put behind the others.
      have hne : (m, s) ∈ d.pending → m ≠ n := fun hmem e =>
        absurd (List.lookup_eq_none_iff.1 hl _ hmem) (by simp [e])
      simp only [Option.isSome_none, Bool.false_eq_true, if_false, List.mem_append,
        List.mem_singleton, Prod.mk.injEq]
      exact ⟨fun h => h.elim (fun h => .inr ⟨hne h, h⟩) .inl,
        fun h => h.elim .inr fun h => .inl h.2⟩
  | some r₀ =>
      -- The call is pending already and is replaced where it stands.
      obtain ⟨l, l', heq, -⟩ := List.lookup_eq_some_iff.1 hl
      have hmem : (n, r₀) ∈ d.pending := by simp [heq]
      simp only [Option.isSome_some, if_true, List.mem_map]
      constructor
      · rintro ⟨p, hp, e⟩
        by_cases hpn : p.1 = n
        · rw [if_pos hpn] at e
          exact .inl ⟨(Prod.mk.inj e).1.symm, (Prod.mk.inj e).2.symm⟩
        · rw [if_neg hpn] at e
          subst e
          exact .inr ⟨hpn, hp⟩
      · rintro (⟨rfl, rfl⟩ | ⟨hne, hp⟩)
        · exact ⟨_, hmem, if_pos rfl⟩
        · exact ⟨_, hp, if_neg hne⟩

theorem numbers_park (h : (d.pending.map Prod.fst).Nodup) :
    ((d.park n r).pending.map Prod.fst).Nodup := by
  unfold park
  cases hl : d.pending.lookup n with
  | none =>
      have hn : n ∉ d.pending.map Prod.fst := by
        intro hmem
        obtain ⟨p, hp, rfl⟩ := List.mem_map.1 hmem
        exact absurd (List.lookup_eq_none_iff.1 hl _ hp) (by simp)
      simp only [Option.isSome_none, Bool.false_eq_true, if_false, List.map_append,
        List.map_singleton]
      refine List.nodup_append.2 ⟨h, by simp, fun x hx y hy e => hn ?_⟩
      rwa [← List.mem_singleton.1 hy, ← e]
  | some r₀ =>
      have hsame : (d.pending.map fun p => if p.1 = n then (n, r) else p).map Prod.fst =
          d.pending.map Prod.fst := by
        rw [List.map_map]
        refine List.map_congr_left fun p _ => ?_
        by_cases hp : p.1 = n <;> simp [hp]
      simp only [Option.isSome_some, if_true]
      rwa [hsame]

theorem mem_dismiss : (m, s) ∈ (d.dismiss n).pending ↔ m ≠ n ∧ (m, s) ∈ d.pending := by
  unfold dismiss
  rw [List.mem_filter, decide_eq_true_eq, and_comm]

/-- A call is up: it is pending, or its number and its owner are new. -/
def Up (d : Desk) (n : Nat) (r : Request) : Prop :=
  ∀ {m s}, (m, s) ∈ d.pending → (s.owner m = r.owner n ↔ m = n)

theorem Distinct.up (h : Distinct d.pending) (hr : (n, r) ∈ d.pending) : d.Up n r := by
  intro m s hs
  constructor
  · exact h.owners hs hr
  · rintro rfl
    rw [h.eq hs hr]

theorem Distinct.park (h : Distinct d.pending) (hup : d.Up n r) :
    Distinct (d.park n r).pending where
  numbers := numbers_park h.numbers
  owners := by
    intro i p j q hp hq e
    rcases mem_park.1 hp with ⟨rfl, rfl⟩ | ⟨hi, hp'⟩
    · rcases mem_park.1 hq with ⟨rfl, rfl⟩ | ⟨hj, hq'⟩
      · rfl
      · exact ((hup hq').1 e.symm).symm
    · rcases mem_park.1 hq with ⟨rfl, rfl⟩ | ⟨hj, hq'⟩
      · exact (hup hp').1 e
      · exact h.owners hp' hq' e

theorem Distinct.dismiss (h : Distinct d.pending) (n : Nat) : Distinct (d.dismiss n).pending where
  numbers := h.numbers.sublist (List.filter_sublist.map _)
  owners hp hq := h.owners (mem_dismiss.1 hp).2 (mem_dismiss.1 hq).2

theorem awaits_park (h : Distinct d.pending) (hup : d.Up n r) :
    (d.park n r).awaits = update d.awaits (r.owner n) r.awaits? := by
  funext o
  apply Option.ext
  intro a
  rw [awaits_eq_some_iff (h.park hup)]
  -- Only the owner of the call may wait for something else than before.
  by_cases ho : o = r.owner n
  · subst ho
    rw [update_self]
    constructor
    · rintro ⟨m, s, hs, e, ha⟩
      rcases mem_park.1 hs with ⟨rfl, rfl⟩ | ⟨hne, hs⟩
      · exact ha
      · exact absurd ((hup hs).1 e) hne
    · exact fun ha => ⟨n, r, mem_park.2 (.inl ⟨rfl, rfl⟩), rfl, ha⟩
  · rw [update_of_ne ho, awaits_eq_some_iff h]
    constructor
    · rintro ⟨m, s, hs, e, ha⟩
      rcases mem_park.1 hs with ⟨rfl, rfl⟩ | ⟨-, hs⟩
      · exact absurd e.symm ho
      · exact ⟨m, s, hs, e, ha⟩
    · rintro ⟨m, s, hs, e, ha⟩
      have hne : m ≠ n := fun hm => ho (e.symm.trans ((hup hs).2 hm))
      exact ⟨m, s, mem_park.2 (.inr ⟨hne, hs⟩), e, ha⟩

theorem awaits_dismiss (h : Distinct d.pending) (hup : d.Up n r) :
    (d.dismiss n).awaits = update d.awaits (r.owner n) none := by
  funext o
  apply Option.ext
  intro a
  rw [awaits_eq_some_iff (h.dismiss n)]
  -- Only the owner of the call waits no more.
  by_cases ho : o = r.owner n
  · subst ho
    rw [update_self]
    refine iff_of_false ?_ (by simp)
    rintro ⟨m, s, hs, e, -⟩
    obtain ⟨hne, hs⟩ := mem_dismiss.1 hs
    exact hne ((hup hs).1 e)
  · rw [update_of_ne ho, awaits_eq_some_iff h]
    constructor
    · rintro ⟨m, s, hs, e, ha⟩
      exact ⟨m, s, (mem_dismiss.1 hs).2, e, ha⟩
    · rintro ⟨m, s, hs, e, ha⟩
      have hne : m ≠ n := fun hm => ho (e.symm.trans ((hup hs).2 hm))
      exact ⟨m, s, mem_dismiss.2 ⟨hne, hs⟩, e, ha⟩

/-! ## The invariant -/

/-- **A sound desk.** -/
structure Sound (spent : Spent) (d : Desk) : Prop where
  bank : d.bank.Sound d.awaits
  fresh : d.bank.Fresh spent
  distinct : Distinct d.pending
  below : ∀ {n r}, (n, r) ∈ d.pending → n < d.next
  waits : ∀ {n r}, (n, r) ∈ d.pending → r.awaits?.isSome
  parked : ∀ {n r}, (n, r) ∈ d.pending → d.bank.Parked n r
  calls : ∀ {n}, d.bank.IsOpen (.call n) → ∃ run, (n, .transfer run) ∈ d.pending

end Desk

theorem Request.call_ne_owner {m n : Nat} (h : m ≠ n) (r : Request) : .call m ≠ r.owner n := by
  cases r <;> simp [Request.owner, h]

theorem Bank.Parked.of_keeps {b b' : Bank} {n : Nat} {r : Request} (h : b.Parked n r)
    (hk : b.Keeps (r.owner n) b') (hb' : b'.Anchored) : b'.Parked n r := by
  cases r with
  | addBalance unit account delta => exact hk.isOpen.2 h
  | updateAccount account balance => exact fun ho => h (hk.isOpen.1 ho)
  | deleteAccount account => exact fun ho => h (hk.isOpen.1 ho)
  | transfer run => exact ⟨h.1.of_keeps hk hb', h.2⟩

namespace Desk

variable {spent : Spent} {d : Desk} {n : Nat} {r r' : Request} {o : Owner} {a : Int} {bank : Bank}

namespace Sound

/-- Something was done at once that touches nothing that pending calls have in flight. -/
theorem with_bank (h : d.Sound spent) (hs : bank.Sound d.awaits) (hf : bank.Fresh spent)
    (hk : ∀ {n r}, (n, r) ∈ d.pending → d.bank.Keeps (r.owner n) bank)
    (hcalls : ∀ {n}, bank.IsOpen (.call n) → d.bank.IsOpen (.call n)) {metrics : Metrics}
    {next : Nat} (hnext : d.next ≤ next) : ({ d with bank, metrics, next } : Desk).Sound spent where
  bank := hs
  fresh := hf
  distinct := h.distinct
  below hr := (h.below hr).trans_le hnext
  waits hr := h.waits hr
  parked hr := (h.parked hr).of_keeps (hk hr) hs.anchored
  calls ho := h.calls (hcalls ho)

/-- A call was left waiting. -/
theorem park (h : d.Sound spent) (hup : d.Up n r') (ha : r'.awaits? = some a)
    (hs : bank.Sound (update d.awaits (r'.owner n) (some a))) (hf : bank.Fresh spent)
    (hk : ∀ {p}, p ≠ r'.owner n → d.bank.Keeps p bank) (hp : bank.Parked n r')
    (hcall : bank.IsOpen (.call n) → ∃ run, r' = .transfer run) {metrics : Metrics} {next : Nat}
    (hnext : d.next ≤ next) (hn : n < next) :
    ({ bank, pending := (d.park n r').pending, metrics, next } : Desk).Sound spent where
  bank := by
    show bank.Sound (d.park n r').awaits
    rw [awaits_park h.distinct hup, ha]
    exact hs
  fresh := hf
  distinct := h.distinct.park hup
  below := by
    intro m s hs
    rcases mem_park.1 hs with ⟨rfl, rfl⟩ | ⟨-, hs⟩
    · exact hn
    · exact (h.below hs).trans_le hnext
  waits := by
    intro m s hs
    rcases mem_park.1 hs with ⟨rfl, rfl⟩ | ⟨-, hs⟩
    · rw [ha]
      rfl
    · exact h.waits hs
  parked := by
    intro m s hs'
    rcases mem_park.1 hs' with ⟨rfl, rfl⟩ | ⟨hne, hs'⟩
    · exact hp
    · exact (h.parked hs').of_keeps (hk fun e => hne ((hup hs').1 e)) hs.anchored
  calls := by
    intro m ho
    by_cases hm : m = n
    · subst hm
      obtain ⟨run, rfl⟩ := hcall ho
      exact ⟨run, mem_park.2 (.inl ⟨rfl, rfl⟩)⟩
    · obtain ⟨run, hrun⟩ := h.calls ((hk (Request.call_ne_owner hm r')).isOpen.1 ho)
      exact ⟨run, mem_park.2 (.inr ⟨hm, hrun⟩)⟩

/-- A call has ended. -/
theorem dismiss (h : d.Sound spent) (hup : d.Up n r)
    (hs : bank.Sound (update d.awaits (r.owner n) none)) (hf : bank.Fresh spent)
    (hk : ∀ {p}, p ≠ r.owner n → d.bank.Keeps p bank) (hclosed : ¬ bank.IsOpen (.call n))
    {metrics : Metrics} {next : Nat} (hnext : d.next ≤ next) :
    ({ bank, pending := (d.dismiss n).pending, metrics, next } : Desk).Sound spent where
  bank := by
    show bank.Sound (d.dismiss n).awaits
    rw [awaits_dismiss h.distinct hup]
    exact hs
  fresh := hf
  distinct := h.distinct.dismiss n
  below hs := (h.below (mem_dismiss.1 hs).2).trans_le hnext
  waits hs := h.waits (mem_dismiss.1 hs).2
  parked := by
    intro m s hs'
    obtain ⟨hne, hs'⟩ := mem_dismiss.1 hs'
    exact (h.parked hs').of_keeps (hk fun e => hne ((hup hs').1 e)) hs.anchored
  calls := by
    intro m ho
    have hm : m ≠ n := fun e => hclosed (e ▸ ho)
    obtain ⟨run, hrun⟩ := h.calls ((hk (Request.call_ne_owner hm r)).isOpen.1 ho)
    exact ⟨run, mem_dismiss.2 ⟨hm, hrun⟩⟩

end Sound

/-! ## Carrying and giving up calls -/

theorem park_eq (d : Desk) (bank : Bank) (n : Nat) (r : Request) : { d with bank }.park n r =
    { bank, pending := (d.park n r).pending, metrics := d.metrics, next := d.next } := by
  unfold Desk.park
  split <;> rfl

theorem attempt_reply (d : Desk) (n : Nat) (r : Request) :
    (d.attempt n r).1 = (r.proceed n d.bank).1 := by
  rw [attempt_eq]
  rcases r.proceed n d.bank with ⟨_ | reply, r', bank⟩ <;> rfl

theorem attempt_bank (d : Desk) (n : Nat) (r : Request) :
    (d.attempt n r).2.bank = (r.proceed n d.bank).2.2 := by
  rw [attempt_eq]
  rcases r.proceed n d.bank with ⟨_ | reply, r', bank⟩
  · dsimp only
    rw [park_eq]
  · rfl

theorem attempt_next (d : Desk) (n : Nat) (r : Request) : (d.attempt n r).2.next = d.next := by
  rw [attempt_eq]
  rcases r.proceed n d.bank with ⟨_ | reply, r', bank⟩
  · dsimp only
    rw [park_eq]
  · rfl

/-- What is left of the bank when a pending call is given up. -/
theorem giveUp_bank (d : Desk) (ha : r.awaits? = some a) : (d.giveUp n r).bank =
    match r with
    | .transfer _ => (d.bank.abandon (r.owner n) a).rollback (.call n)
    | _ => d.bank.abandon (r.owner n) a := by
  unfold Desk.giveUp
  rw [ha]
  cases r <;> rfl

theorem giveUp_eq (d : Desk) (n : Nat) (r : Request) : ∃ metrics, d.giveUp n r =
    { bank := (d.giveUp n r).bank, pending := (d.dismiss n).pending, metrics, next := d.next } := by
  unfold Desk.giveUp
  cases r with
  | transfer run => exact ⟨_, rfl⟩
  | _ => exact ⟨d.metrics, rfl⟩

theorem giveUp_pending (d : Desk) (n : Nat) (r : Request) :
    (d.giveUp n r).pending = (d.dismiss n).pending := by
  obtain ⟨metrics, heq⟩ := giveUp_eq d n r
  rw [heq]

theorem giveUp_next (d : Desk) (n : Nat) (r : Request) : (d.giveUp n r).next = d.next := by
  obtain ⟨metrics, heq⟩ := giveUp_eq d n r
  rw [heq]

theorem call_desk (d : Desk) (r : Request) : (d.call r).2 = (d.attempt d.next r).2.count := by
  unfold Desk.call
  rcases d.attempt d.next r with ⟨_ | reply, d'⟩ <;> rfl

/-! ## What happens at a desk, case by case -/

/-- A unit of work is opened unless there is one with its name. -/
theorem submit_begin_cases (d : Desk) (unit : String) :
    (d.bank.IsOpen (.unit unit) ∧ d.submit (.begin unit) = (.refused .unitExists, d.count)) ∨
    (¬ d.bank.IsOpen (.unit unit) ∧ d.submit (.begin unit) =
      d.atOnce (fun _ : Unit => .nothing) (.ok (), d.bank.begin (.unit unit))) := by
  by_cases hopen : d.isOpen unit = true
  · exact .inl ⟨hopen, if_pos hopen⟩
  · exact .inr ⟨hopen, if_neg hopen⟩

/-- A unit of work is available if it is open and none of its calls is pending. -/
theorem unavailable?_eq_none {unit : String} :
    d.unavailable? unit = none ↔ d.bank.IsOpen (.unit unit) ∧ ¬ d.isBusy unit = true := by
  unfold unavailable?
  by_cases hbusy : d.isBusy unit = true
  · simp [hbusy]
  · by_cases hopen : d.isOpen unit = true
    · simp [hbusy, hopen, Bank.IsOpen, show (d.bank.work? (.unit unit)).isSome = true from hopen]
    · simp [hbusy, hopen, Bank.IsOpen, show ¬ (d.bank.work? (.unit unit)).isSome = true from hopen]

/-- Something is done in a unit of work only if it is open and none of its calls is pending. -/
theorem submit_onUnit_cases (d : Desk) (unit : String) (action : UnitAction) :
    (∃ refusal, d.submit (.onUnit unit action) = (.refused refusal, d.count)) ∨
    (d.bank.IsOpen (.unit unit) ∧ ¬ d.isBusy unit = true ∧
      d.submit (.onUnit unit action) = d.onUnit unit action) := by
  by_cases hbusy : d.isBusy unit = true
  · exact .inl ⟨.unitBusy, by simp [submit, unavailable?, hbusy]⟩
  · by_cases hopen : d.isOpen unit = true
    · exact .inr ⟨hopen, hbusy, by simp [submit, unavailable?, hbusy, hopen]⟩
    · exact .inl ⟨.noSuchUnit, by simp [submit, unavailable?, hbusy, hopen]⟩

/-- A call that is asked to go on is carried further, if it is pending. -/
theorem poll_cases (d : Desk) (n : Nat) :
    (d.pending.lookup n = none ∧ d.poll n = (none, d)) ∨
    ∃ r, (n, r) ∈ d.pending ∧ d.pending.lookup n = some r ∧ d.poll n = d.attempt n r := by
  unfold Desk.poll
  cases hl : d.pending.lookup n with
  | none => exact .inl ⟨rfl, rfl⟩
  | some r =>
      obtain ⟨l, l', heq, -⟩ := List.lookup_eq_some_iff.1 hl
      exact .inr ⟨r, by simp [heq], rfl, rfl⟩

theorem poll_of_mem (h : Distinct d.pending) (hr : (n, r) ∈ d.pending) :
    d.poll n = d.attempt n r := by
  unfold Desk.poll
  rw [(lookup_eq_some_iff h).2 hr]

/-- A call that is cancelled is given up, if it is pending. -/
theorem cancel_cases (d : Desk) (n : Nat) :
    (d.pending.lookup n = none ∧ (d.cancel n).2 = d.count) ∨
    ∃ r, (n, r) ∈ d.pending ∧ d.pending.lookup n = some r ∧
      (d.cancel n).2 = (d.giveUp n r).count := by
  unfold Desk.cancel
  cases hl : d.pending.lookup n with
  | none => exact .inl ⟨rfl, rfl⟩
  | some r =>
      obtain ⟨l, l', heq, -⟩ := List.lookup_eq_some_iff.1 hl
      exact .inr ⟨r, by simp [heq], rfl, rfl⟩

/-- No call of a unit of work is pending unless it is busy. -/
theorem idle_of_not_busy {unit : String} (h : ¬ d.isBusy unit = true) {m : Nat} {s : Request}
    (hs : (m, s) ∈ d.pending) : s.owner m ≠ .unit unit := by
  intro e
  cases s with
  | addBalance u account delta =>
      obtain rfl : u = unit := Owner.unit.inj e
      exact h (List.any_eq_true.2 ⟨_, hs, by simp⟩)
  | _ => cases e

namespace Sound

theorem closed_of_mem (h : d.Sound spent) (hr : (n, r) ∈ d.pending)
    (hne : ∀ run, r ≠ .transfer run) : ¬ d.bank.IsOpen (.call n) := by
  intro ho
  obtain ⟨run, hrun⟩ := h.calls ho
  exact hne run (h.distinct.eq hr hrun)

theorem closed_of_new (h : d.Sound spent) : ¬ d.bank.IsOpen (.call d.next) := by
  intro ho
  obtain ⟨run, hrun⟩ := h.calls ho
  exact absurd (h.below hrun) (lt_irrefl _)

/-- A pending call can be asked to go on. -/
theorem canProceed (h : d.Sound spent) (hr : (n, r) ∈ d.pending) :
    d.bank.CanProceed spent d.awaits n r := by
  have hawaits := awaits_of_mem h.distinct hr
  have hparked := h.parked hr
  cases r with
  | addBalance unit account delta =>
      exact ⟨hparked, h.closed_of_mem hr (by simp), .inr hawaits⟩
  | updateAccount account balance => exact ⟨hparked, .inr hawaits⟩
  | deleteAccount account => exact ⟨hparked, .inr hawaits⟩
  | transfer run =>
      obtain ⟨a, ha⟩ := Option.isSome_iff_exists.1 (h.waits hr)
      refine ⟨rfl, .refl _ _, h.fresh, hparked.1, .inr ⟨a, ?_, ?_, hparked.2⟩⟩
      · rwa [← Request.awaits?_transfer]
      · have hsame : update d.awaits (.call n) (some a) = d.awaits := by
          rw [← ha, ← hawaits]
          exact Function.update_eq_self _ _
        rw [hsame]
        exact h.bank

theorem awaits_next (h : d.Sound spent) : d.awaits (.call d.next) = none :=
  awaits_of_idle fun {_ s} hs e => Request.call_ne_owner (h.below hs).ne' s e.symm

/-- A new call is up unless its unit of work is busy. -/
theorem up_next (h : d.Sound spent)
    (hidle : ∀ {m s}, (m, s) ∈ d.pending → s.owner m ≠ r.owner d.next) : d.Up d.next r :=
  fun hs => iff_of_false (hidle hs) (h.below hs).ne

/-- A call on its own account is always up. -/
theorem up_call (h : d.Sound spent) (hr : r.owner d.next = .call d.next) : d.Up d.next r :=
  h.up_next fun {_ s} hs e => Request.call_ne_owner (h.below hs).ne' s (hr.symm.trans e.symm)

/-- A new call that gets its answer at once leaves nothing pending. -/
theorem call_answered (h : d.Sound spent) {reply : Reply} {r' : Request}
    (hr : r.proceed d.next d.bank = (some reply, r', bank)) :
    d.call r = (.reply reply,
      { d with bank, metrics := Request.record d.metrics reply, next := d.next + 1 }) := by
  have hpending : (d.pending.filter fun p => p.1 ≠ d.next) = d.pending :=
    List.filter_eq_self.2 fun p hp => by simpa using (h.below hp).ne
  unfold Desk.call
  rw [attempt_eq, hr]
  unfold Desk.dismiss Desk.count
  dsimp only
  rw [hpending]

/-- A transfer can be started. -/
theorem canStart (h : d.Sound spent) (t : NewTransfer) (faults : List Fault) :
    d.bank.CanProceed spent d.awaits d.next (.transfer { request := t, faults }) :=
  Bank.InFlight.start h.bank h.fresh h.closed_of_new h.awaits_next t faults

/-- **Carrying a call as far as it gets.** -/
theorem attempt (h : d.Sound spent) (hup : d.Up n r)
    (hcan : d.bank.CanProceed spent d.awaits n r) {next : Nat} (hnext : d.next ≤ next)
    (hn : n < next) :
    ({ (d.attempt n r).2 with next } : Desk).Sound spent ∧
      d.bank.Performs spent (r.owner n) ((d.attempt n r).1.elim [] (Effect.of r.command))
        (d.attempt n r).2.bank := by
  have hproceed := hcan.proceed h.bank h.fresh
  rw [attempt_eq]
  generalize r.proceed n d.bank = x at hproceed ⊢
  obtain ⟨answer, r', bank⟩ := x
  cases answer with
  | none =>
      obtain ⟨howner, hparked, hw, hf, ⟨a, ha, hs⟩, hcall⟩ := hproceed
      -- What is left of the call has the number and the owner of the call.
      have hup' : d.Up n r' := fun hs => by rw [howner]; exact hup hs
      have hperforms := hw.performs h.bank hs hf
      dsimp only
      rw [park_eq]
      exact ⟨h.park hup' ha (by rwa [howner]) hf (fun hp => hperforms.keeps (howner ▸ hp)) hparked
        hcall hnext hn, hperforms⟩
  | some reply =>
      obtain ⟨hperforms, hs, hclosed⟩ := hproceed
      exact ⟨h.dismiss hup hs hperforms.fresh hperforms.keeps hclosed hnext, hperforms⟩

/-- **Giving up a call.** Nobody else notices, whether it was cancelled before or after it was given
the lock that it awaited. -/
theorem giveUp (h : d.Sound spent) (hr : (n, r) ∈ d.pending) {next : Nat} (hnext : d.next ≤ next) :
    ({ d.giveUp n r with next } : Desk).Sound spent ∧
      d.bank.Within (r.owner n) (d.giveUp n r).bank ∧
      ∀ u, .unit u = r.owner n → d.bank.Keeps (.unit u) (d.giveUp n r).bank := by
  obtain ⟨a, ha⟩ := Option.isSome_iff_exists.1 (h.waits hr)
  have hawaits := (awaits_of_mem h.distinct hr).trans ha
  obtain ⟨hw, ⟨locks, hlocks⟩, hs⟩ := h.bank.abandon hawaits
  have hf := h.fresh.with_locks locks
  -- Only a transfer has a unit of work of its own, which is rolled back as well.
  have key : d.bank.Within (r.owner n) (d.giveUp n r).bank ∧ (d.giveUp n r).bank.Fresh spent ∧
      (d.giveUp n r).bank.Sound (update d.awaits (r.owner n) none) ∧
      ¬ (d.giveUp n r).bank.IsOpen (.call n) := by
    rw [giveUp_bank d ha]
    have hsame : ∀ p, (d.bank.abandon (r.owner n) a).IsOpen p ↔ d.bank.IsOpen p := fun p => by
      rw [hlocks]
      rfl
    rw [← hlocks] at hf
    cases r with
    | transfer run =>
        have hback := hs.rollback (update_self _ _ _)
        exact ⟨hw.trans hs.within_rollback, hf.rollback (hs.locking.once _), hback,
          Bank.not_isOpen_rollback hs⟩
    | addBalance unit account delta =>
        exact ⟨hw, hf, hs, fun ho => h.closed_of_mem hr (by simp) ((hsame _).1 ho)⟩
    | updateAccount account balance =>
        exact ⟨hw, hf, hs, fun ho => h.closed_of_mem hr (by simp) ((hsame _).1 ho)⟩
    | deleteAccount account =>
        exact ⟨hw, hf, hs, fun ho => h.closed_of_mem hr (by simp) ((hsame _).1 ho)⟩
  obtain ⟨hwithin, hfresh, hsound, hclosed⟩ := key
  obtain ⟨metrics, heq⟩ := giveUp_eq d n r
  refine ⟨?_, hwithin, fun u hu => ?_⟩
  · rw [heq]
    exact h.dismiss (h.distinct.up hr) hsound hfresh (fun hp => hwithin.keeps h.bank hsound hp)
      hclosed hnext
  · -- A unit of work with a name gives up its place in a queue and nothing else.
    rw [giveUp_bank d ha, hlocks]
    cases r with
    | addBalance unit account delta => exact .of_locks d.bank (.unit u) locks
    | _ => cases hu

end Sound

end Desk

end DoubleEntry
