import DoubleEntry.Proofs.Retelling
import DoubleEntry.Proofs.Turns
set_option autoImplicit false

/-! # A desk retold

`Retelling.desk` is a desk as it is told when some pending calls are left out and the commands have
other numbers. As on a bank, what happens is retold backwards: if the calls that are left out are
pending and wait afterwards (`Retelling.Suits`), then they did before, and the rest comes to the
same. To ask a call that is left out changes nothing.
-/

namespace DoubleEntry

/-- Looking a key up where only some keys are kept. -/
theorem lookup_filter_key {α γ : Type} [DecidableEq α] (p : α → Bool) (l : List (α × γ)) (k : α) :
    (l.filter fun x => p x.1).lookup k = if p k = true then l.lookup k else none := by
  induction l with
  | nil => simp
  | cons x rest ih =>
      by_cases hx : p x.1 = true
      · rw [List.filter_cons, if_pos hx, List.lookup_cons, List.lookup_cons, ih]
        by_cases hk : k = x.1
        · simp [hk, hx]
        · simp [beq_eq_decide, hk]
      · rw [List.filter_cons, if_neg hx, List.lookup_cons, ih]
        by_cases hk : k = x.1
        · simp [hk, hx]
        · simp [beq_eq_decide, hk]

/-- What is left of a transfer that waits is a transfer. -/
theorem Request.single_of_proceed {n : Nat} {r : Request} {b : Bank}
    (h : ∀ run, (r.proceed n b).2.1 ≠ .transfer run) : ∀ run, r ≠ .transfer run := by
  rintro run rfl
  unfold Request.proceed at h
  dsimp only at h
  generalize (Bank.store (.call n)).run run b = x at h
  obtain ⟨run' | ⟨outcome, made⟩, b'⟩ := x
  · exact h run' rfl
  · exact h run rfl

namespace Retelling

open Desk

variable {t : Retelling} {nonNegative : Bool} {spent : Spent} {d : Desk} {n : Nat} {r : Request}

/-- The numbers of the calls that are left out. -/
def numbers (t : Retelling) : List Nat := t.omitted.map Prod.fst

/-- **A desk as it is told,** where the next command gets some number. -/
def desk (t : Retelling) (next : Nat) (d : Desk) : Desk where
  bank := t.bank d.bank
  pending := (d.pending.filter fun x => x.1 ∉ t.numbers).map fun x => (t.number x.1, x.2)
  metrics := d.metrics
  next := next

/-- The calls that are left out are pending, and wait. -/
structure Suits (t : Retelling) (d : Desk) : Prop where
  pending : ∀ x ∈ t.omitted, x ∈ d.pending
  fits : t.Fits d.bank

/-! ## Pending calls -/

theorem lookup_desk (t : Retelling) (next : Nat) (d : Desk) (n : Nat) :
    (t.desk next d).pending.lookup (t.number n) =
      if n ∉ t.numbers then d.pending.lookup n else none := by
  unfold desk
  dsimp only
  rw [lookup_renamed t.injective, lookup_filter_key (fun n => decide (n ∉ t.numbers))]
  simp only [decide_eq_true_eq]

theorem park_desk (next : Nat) (d : Desk) (hn : n ∉ t.numbers) (r : Request) :
    (t.desk next d).park (t.number n) r = t.desk next (d.park n r) := by
  unfold park
  rw [lookup_desk, if_pos hn]
  by_cases hl : (d.pending.lookup n).isSome
  · -- The call is replaced where it stands, under either number.
    rw [if_pos hl, if_pos hl]
    unfold desk
    dsimp only
    rw [List.filter_map, List.map_map, List.map_map]
    have hkept : ∀ x : Nat × Request, decide ((if x.1 = n then (n, r) else x).1 ∉ t.numbers) =
        decide (x.1 ∉ t.numbers) := by
      intro x
      by_cases hx : x.1 = n <;> simp [hx]
    have hrenamed : ∀ x : Nat × Request,
        (if t.number x.1 = t.number n then (t.number n, r) else (t.number x.1, x.2)) =
          (t.number (if x.1 = n then (n, r) else x).1, (if x.1 = n then (n, r) else x).2) := by
      intro x
      by_cases hx : x.1 = n <;> simp [hx, t.injective.eq_iff]
    simp only [Function.comp_def, hkept, hrenamed]
  · rw [if_neg hl, if_neg hl]
    unfold desk
    dsimp only
    rw [List.filter_append, List.map_append, List.filter_singleton]
    simp [hn]

theorem dismiss_desk (t : Retelling) (next : Nat) (d : Desk) (n : Nat) :
    (t.desk next d).dismiss (t.number n) = t.desk next (d.dismiss n) := by
  unfold dismiss desk
  dsimp only
  rw [List.filter_map, List.filter_filter, List.filter_filter]
  congr 2
  refine List.filter_congr fun x _ => ?_
  simp [t.injective.eq_iff, Bool.and_comm]

theorem mem_numbers : n ∈ t.numbers ↔ ∃ r, (n, r) ∈ t.omitted := by
  unfold numbers
  rw [List.mem_map]
  exact ⟨fun ⟨x, hx, e⟩ => ⟨x.2, e ▸ hx⟩, fun ⟨r, hr⟩ => ⟨_, hr, rfl⟩⟩

/-! ## Calls that are carried as far as they get -/

/-- Whoever is not the owner of a call that is left out is told. -/
theorem tells {o : Owner} (h : ∀ x ∈ t.omitted, x.2.owner x.1 ≠ o) : t.Tells o :=
  fun _ => List.any_eq_false.2 fun x hx e => h x hx (of_decide_eq_true e).1

theorem tells_of_up (hpending : ∀ x ∈ t.omitted, x ∈ d.pending) (hup : d.Up n r)
    (hn : n ∉ t.numbers) : t.Tells (r.owner n) := by
  refine tells fun x hx howner => hn ?_
  rw [← (hup (hpending x hx)).1 howner]
  exact List.mem_map.2 ⟨x, hx, rfl⟩

theorem mem_pending_of_attempt {x : Nat × Request} (hx : x.1 ≠ n)
    (h : x ∈ (d.attempt n r).2.pending) : x ∈ d.pending := by
  rw [attempt_eq] at h
  generalize r.proceed n d.bank = y at h
  obtain ⟨_ | reply, r', bank⟩ := y
  · dsimp only at h
    rw [park_eq] at h
    exact ((mem_park.1 h).resolve_left fun e => hx e.1).2
  · exact (mem_dismiss.1 h).2

/-- **A call is retold** when it is carried as far as it gets. -/
theorem attempt_desk (hup : d.Up n r) (hcan : d.bank.CanProceed spent d.awaits n r)
    (hn : n ∉ t.numbers) (hs : t.Suits (d.attempt n r).2) (next : Nat) :
    t.Suits d ∧ (t.desk next d).attempt (t.number n) r =
      ((d.attempt n r).1, t.desk next (d.attempt n r).2) := by
  have hpending : ∀ x ∈ t.omitted, x ∈ d.pending := fun x hx =>
    mem_pending_of_attempt (fun e => hn (List.mem_map.2 ⟨x, hx, e⟩)) (hs.pending x hx)
  have hfits := hs.fits
  rw [attempt_bank] at hfits
  obtain ⟨hfits, heq⟩ := proceed_bank (tells_of_up hpending hup hn) hcan hfits
  refine ⟨⟨hpending, hfits⟩, ?_⟩
  rw [attempt_eq, attempt_eq, show (t.desk next d).bank = t.bank d.bank from rfl, heq]
  obtain ⟨_ | reply, r', bank⟩ := r.proceed n d.bank
  · exact congrArg (Prod.mk none) (park_desk next { d with bank } hn r')
  · exact congrArg (Prod.mk (some reply)) (dismiss_desk t next
      { d with bank, metrics := Request.record d.metrics reply } n)

/-- A call that is left out, and that is pending afterwards, gets no further. -/
theorem poll_omitted (h : d.Sound spent) (hn : n ∈ t.numbers) (hs : t.Suits (d.poll n).2) :
    d.poll n = (none, d) := by
  obtain ⟨r, hr⟩ := mem_numbers.1 hn
  have hafter := hs.pending _ hr
  rcases d.poll_cases n with ⟨-, heq⟩ | ⟨s, hs, -, heq⟩
  · exact heq
  · -- It waits, and what waits under the number is the statement that is left out.
    have hwaits : (d.poll n).1 = none ∧ (s.proceed n d.bank).2.1 = r := by
      rw [heq] at hafter ⊢
      rw [attempt_eq] at hafter ⊢
      generalize s.proceed n d.bank = y at hafter ⊢
      obtain ⟨_ | reply, s', bank⟩ := y
      · dsimp only at hafter
        rw [park_eq] at hafter
        rcases mem_park.1 hafter with ⟨-, e⟩ | ⟨hne, -⟩
        · exact ⟨rfl, e.symm⟩
        · exact absurd rfl hne
      · exact absurd rfl (mem_dismiss.1 hafter).1
    refine h.poll_of_single hs (Request.single_of_proceed (b := d.bank) (n := n) ?_) hwaits.1
    rw [hwaits.2]
    exact t.single _ hr

/-- **A call that is asked to go on** is retold. -/
theorem poll_desk (h : d.Sound spent) (hs : t.Suits (d.poll n).2) (next : Nat) :
    t.Suits d ∧ (t.desk next d).poll (t.number n) = ((d.poll n).1, t.desk next (d.poll n).2) := by
  by_cases hn : n ∈ t.numbers
  · have hsame := poll_omitted h hn hs
    rw [hsame] at hs ⊢
    refine ⟨hs, ?_⟩
    unfold poll
    rw [lookup_desk, if_neg (not_not.2 hn)]
  · unfold poll at hs ⊢
    rw [lookup_desk, if_pos hn]
    cases hl : d.pending.lookup n with
    | none =>
        rw [hl] at hs
        exact ⟨hs, rfl⟩
    | some r =>
        rw [hl] at hs
        have hr := (lookup_eq_some_iff h.distinct).1 hl
        exact attempt_desk (h.distinct.up hr) (h.canProceed hr) hn hs next

/-! ## Rounds -/

/-- The replies of calls that ended, as they are told. -/
def replies (t : Retelling) (xs : List (Nat × Reply)) : List (Nat × Reply) :=
  xs.map fun x => (t.number x.1, x.2)

/-- **A round is retold.** The calls that are left out are not asked. -/
theorem pollEach_desk (h : d.Reachable nonNegative) (ns : List Nat)
    (hs : t.Suits (d.pollEach ns).2) (next : Nat) :
    t.Suits d ∧ (t.desk next d).pollEach ((ns.filter (· ∉ t.numbers)).map t.number) =
      (t.replies (d.pollEach ns).1, t.desk next (d.pollEach ns).2) := by
  induction ns generalizing d with
  | nil => exact ⟨hs, rfl⟩
  | cons n ns ih =>
      rw [pollEach_cons] at hs ⊢
      obtain ⟨hmid, hrest⟩ := ih (h.poll n) hs
      obtain ⟨hstart, hfirst⟩ := poll_desk h.sound hmid next
      refine ⟨hstart, ?_⟩
      unfold replies at hrest ⊢
      by_cases hn : n ∈ t.numbers
      · -- To ask a call that is left out changes nothing.
        have hsame := poll_omitted h.sound hn hmid
        rw [hsame] at hrest ⊢
        rw [List.filter_cons_of_neg (by simpa using hn), hrest]
        rfl
      · rw [List.filter_cons_of_pos (by simpa using hn), List.map_cons, pollEach_cons, hfirst,
          hrest, List.map_append]
        cases (d.poll n).1 <;> rfl

theorem numbers_desk (t : Retelling) (next : Nat) (d : Desk) :
    (t.desk next d).pending.map Prod.fst =
      ((d.pending.map Prod.fst).filter (· ∉ t.numbers)).map t.number := by
  unfold desk
  dsimp only
  rw [List.filter_map, List.map_map, List.map_map]
  rfl

theorem settleFor_desk (h : d.Reachable nonNegative) (fuel : Nat)
    (hs : t.Suits (settleFor fuel d).2) (next : Nat) :
    t.Suits d ∧ settleFor fuel (t.desk next d) =
      (t.replies (settleFor fuel d).1, t.desk next (settleFor fuel d).2) := by
  induction fuel generalizing d with
  | zero => exact ⟨hs, rfl⟩
  | succ fuel ih =>
      have hround := fun hs => pollEach_desk (t := t) h (d.pending.map Prod.fst) hs next
      have hempty : ∀ xs, (t.replies xs).isEmpty = xs.isEmpty := fun xs => List.isEmpty_map
      simp only [settleFor, numbers_desk] at hs ⊢
      by_cases hsilent : (d.pollEach (d.pending.map Prod.fst)).1.isEmpty = true
      · rw [if_pos hsilent] at hs ⊢
        obtain ⟨hstart, heq⟩ := hround hs
        rw [heq, if_pos (by rwa [hempty])]
        exact ⟨hstart, rfl⟩
      · rw [if_neg hsilent] at hs ⊢
        obtain ⟨hmid, hrest⟩ := ih (h.pollEach _) hs
        obtain ⟨hstart, heq⟩ := hround hmid
        rw [heq, if_neg (by rwa [hempty]), hrest]
        exact ⟨hstart, Prod.ext (List.map_append ..).symm rfl⟩

/-- **All rounds are retold.** -/
theorem settle_desk (h : d.Reachable nonNegative) (hs : t.Suits d.settle.2) (next : Nat) :
    t.Suits d ∧ ((t.desk next d).Reachable nonNegative →
      (t.desk next d).settle = (t.replies d.settle.1, t.desk next d.settle.2)) := by
  obtain ⟨hstart, heq⟩ := settleFor_desk h _ hs next
  refine ⟨hstart, fun htold => (htold.settleFor_eq_settle ?_).symm.trans heq⟩
  have hlength : (t.desk next d).pending.length ≤ d.pending.length := by
    unfold desk
    dsimp only
    rw [List.length_map]
    exact List.length_filter_le _ _
  omega

/-! ## Commands -/

section Commands

variable {next : Nat}

/-- A command that ends at once is retold if its work on the bank is. -/
theorem atOnce_desk {α : Type} {x y : Except LedgerError α × Bank} (hx : t.Retells d.bank x y)
    (value : α → Value) (hs : t.Suits (d.atOnce value x).2) :
    t.Suits d ∧ (t.desk next d).atOnce value y =
      ((d.atOnce value x).1, t.desk (next + 1) (d.atOnce value x).2) := by
  obtain ⟨hfits, rfl⟩ := hx hs.fits
  exact ⟨⟨hs.pending, hfits⟩, rfl⟩

/-- A new call is retold. -/
theorem newCall_desk (hup : d.Up d.next r) (hcan : d.bank.CanProceed spent d.awaits d.next r)
    (hnew : d.next ∉ t.numbers) (hnext : t.number d.next = next) (hs : t.Suits (d.call r).2) :
    t.Suits d ∧ (t.desk next d).call r = ((d.call r).1, t.desk (next + 1) (d.call r).2) := by
  have hbefore : t.Suits (d.attempt d.next r).2 := by
    rw [call_desk] at hs
    exact ⟨hs.pending, hs.fits⟩
  obtain ⟨hstart, heq⟩ := attempt_desk hup hcan hnew hbefore next
  refine ⟨hstart, ?_⟩
  unfold Desk.call
  rw [show (t.desk next d).next = t.number d.next from hnext.symm, heq]
  rcases d.attempt d.next r with ⟨_ | reply, d'⟩ <;> rfl

theorem mem_pending_of_submit {c : Command} {x : Nat × Request} (hx : x.1 ≠ d.next)
    (h : x ∈ (d.submit c).2.pending) : x ∈ d.pending := by
  rcases d.pending_submit c with hsame | ⟨r, -, heq⟩
  · rwa [hsame] at h
  · rw [heq, Desk.call_desk] at h
    exact mem_pending_of_attempt hx h

/-- A unit of work is as available as before, unless its call is left out. -/
theorem unavailable?_desk (h : Distinct d.pending) (hpending : ∀ x ∈ t.omitted, x ∈ d.pending)
    {unit : String} (hunit : ∀ x ∈ t.omitted, x.2.owner x.1 ≠ .unit unit) :
    (t.desk next d).unavailable? unit = d.unavailable? unit := by
  have hbusy : (t.desk next d).isBusy unit = d.isBusy unit := by
    unfold isBusy desk
    dsimp only
    rw [List.any_map, List.any_filter, Bool.eq_iff_iff, List.any_eq_true, List.any_eq_true]
    refine exists_congr fun ⟨m, s⟩ => and_congr_right fun hs => ?_
    by_cases hm : m ∈ t.numbers
    · -- What is left out under this number is no adjustment of the unit of work.
      obtain ⟨r, hr⟩ := mem_numbers.1 hm
      obtain rfl := h.eq (hpending _ hr) hs
      have howner := hunit _ hr
      cases r with
      | addBalance u account delta =>
          have hu : u ≠ unit := fun e => howner (congrArg Owner.unit e)
          simp [hu]
      | _ => simp
    · simp [hm]
  have hopen : (t.desk next d).isOpen unit = d.isOpen unit :=
    congrArg Option.isSome (work?_bank t d.bank (.unit unit))
  unfold unavailable?
  rw [hbusy, hopen]

theorem onUnit_desk (h : d.Sound spent) {unit : String} {action : UnitAction}
    (hunit : d.bank.IsOpen (.unit unit) ∧ ¬ d.isBusy unit = true)
    (howner : ∀ x ∈ t.omitted, x.2.owner x.1 ≠ .unit unit) (hnew : d.next ∉ t.numbers)
    (hnext : t.number d.next = next) (hs : t.Suits (d.onUnit unit action).2) :
    t.Suits d ∧ (t.desk next d).onUnit unit action =
      ((d.onUnit unit action).1, t.desk (next + 1) (d.onUnit unit action).2) := by
  obtain ⟨hopen, hbusy⟩ := hunit
  have htells : t.Tells (.unit unit) := tells howner
  have hidle : ∀ {m s}, (m, s) ∈ d.pending → s.owner m ≠ .unit unit := idle_of_not_busy hbusy
  have hrollback := retells_rollback htells h.bank (Except.ok () : Except LedgerError Unit)
  cases action with
  | createTransfer n =>
      exact atOnce_desk (.of_locks (d.bank.locks_createTransfer _ n)
        (createTransfer_bank t d.bank (.unit unit) n)) _ hs
  | createEntry n =>
      exact atOnce_desk (.of_locks (d.bank.locks_createEntry _ n)
        (createEntry_bank t d.bank (.unit unit) n)) _ hs
  | addBalance account delta =>
      have hcan : d.bank.CanProceed spent d.awaits d.next (.addBalance unit account delta) :=
        ⟨hopen, h.closed_of_new, .inl (awaits_of_idle hidle)⟩
      exact newCall_desk (h.up_next hidle) hcan hnew hnext hs
  | commit => exact atOnce_desk (retells_commit htells h.bank _) _ hs
  | rollback => exact atOnce_desk hrollback _ hs
  | drop => exact atOnce_desk hrollback _ hs

/-- **A command is retold** that is not for a unit of work whose call is left out. -/
theorem submit_desk (h : d.Sound spent) {c : Command}
    (hunit : ∀ x ∈ t.omitted, ∀ unit action, c = .onUnit unit action → x.2.owner x.1 ≠ .unit unit)
    (hnew : d.next ∉ t.numbers) (hnext : t.number d.next = next) (hs : t.Suits (d.submit c).2) :
    t.Suits d ∧ (t.desk next d).submit c =
      ((d.submit c).1, t.desk (next + 1) (d.submit c).2) := by
  have hpending : ∀ x ∈ t.omitted, x ∈ d.pending := fun x hx =>
    mem_pending_of_submit (fun e => hnew (List.mem_map.2 ⟨x, hx, e⟩)) (hs.pending x hx)
  -- A command that leaves the bank alone is only counted.
  have counted : ∀ response, t.Suits d.count → t.Suits d ∧
      ((response, (t.desk next d).count) : Response × Desk) =
        (response, t.desk (next + 1) d.count) := fun _ hs => ⟨⟨hs.pending, hs.fits⟩, rfl⟩
  cases c with
  | query q => exact counted _ hs
  | createAccount n =>
      exact atOnce_desk (.of_locks (locks_createAccount d.bank n) (createAccount_bank t d.bank n)) _
        hs
  | updateAccount account balance =>
      have hcan : d.bank.CanProceed spent d.awaits d.next (.updateAccount account balance) :=
        ⟨h.closed_of_new, .inl h.awaits_next⟩
      exact newCall_desk (h.up_call rfl) hcan hnew hnext hs
  | deleteAccount account =>
      have hcan : d.bank.CanProceed spent d.awaits d.next (.deleteAccount account) :=
        ⟨h.closed_of_new, .inl h.awaits_next⟩
      exact newCall_desk (h.up_call rfl) hcan hnew hnext hs
  | begin unit =>
      unfold submit at hs ⊢
      dsimp only at hs ⊢
      rw [show (t.desk next d).isOpen unit = d.isOpen unit from
        congrArg Option.isSome (work?_bank t d.bank (.unit unit))]
      by_cases hopen : d.isOpen unit = true
      · rw [if_pos hopen] at hs ⊢
        rw [if_pos hopen]
        exact counted _ hs
      · rw [if_neg hopen] at hs ⊢
        rw [if_neg hopen]
        exact atOnce_desk (.of_locks (b := d.bank) rfl
          (congrArg (Prod.mk _) (bank_begin t d.bank (.unit unit)).symm)) _ hs
  | onUnit unit action =>
      have howner := fun x hx => hunit x hx unit action rfl
      unfold submit at hs ⊢
      dsimp only at hs ⊢
      rw [unavailable?_desk h.distinct hpending howner]
      cases he : d.unavailable? unit with
      | some refusal =>
          rw [he] at hs
          exact counted _ hs
      | none =>
          rw [he] at hs
          exact onUnit_desk h (unavailable?_eq_none.1 he) howner hnew hnext hs
  | transfer n faults =>
      exact newCall_desk (r := .transfer { request := n, faults }) (h.up_call rfl)
        (h.canStart n faults) hnew hnext hs

end Commands

/-- A call that is given up is retold. -/
theorem giveUp_desk (h : d.Sound spent) (hr : (n, r) ∈ d.pending) (hn : n ∉ t.numbers)
    (hs : t.Suits (d.giveUp n r)) (next : Nat) :
    t.Suits d ∧ (t.desk next d).giveUp (t.number n) r = t.desk next (d.giveUp n r) := by
  have hpending : ∀ x ∈ t.omitted, x ∈ d.pending := fun x hx =>
    (mem_dismiss.1 (by rw [← giveUp_pending]; exact hs.pending x hx)).2
  have htells := tells_of_up hpending (h.distinct.up hr) hn
  obtain ⟨a, ha⟩ := Option.isSome_iff_exists.1 (h.waits hr)
  obtain ⟨-, -, hsound⟩ := h.bank.abandon ((awaits_of_mem h.distinct hr).trans ha)
  -- Stopping to wait is one operation on the bank, and dropping a unit of work another.
  have habandon : t.Fits (d.bank.abandon (r.owner n) a) → t.Fits d.bank ∧
      (t.desk next d).bank.abandon (r.owner (t.number n)) a =
        t.bank (d.bank.abandon (r.owner n) a) := by
    intro hfits
    obtain ⟨hfits, heq⟩ := retells_abandon htells d.bank a () hfits
    rw [owner_owner] at heq
    exact ⟨hfits, (Prod.mk.inj heq).2⟩
  have single : t.Fits (d.bank.abandon (r.owner n) a) → t.Suits d ∧
      { t.desk next d with
        bank := (t.desk next d).bank.abandon (r.owner (t.number n)) a }.dismiss (t.number n) =
        t.desk next ({ d with bank := d.bank.abandon (r.owner n) a }.dismiss n) := by
    intro hfits
    obtain ⟨hfits, hbank⟩ := habandon hfits
    rw [hbank]
    exact ⟨⟨hpending, hfits⟩, dismiss_desk t next { d with bank := _ } n⟩
  have hfits := hs.fits
  rw [giveUp_bank d ha] at hfits
  unfold giveUp
  rw [ha]
  cases r with
  | transfer run =>
      obtain ⟨hfits, hdrop⟩ := retells_rollback (o := .call n) htells hsound () hfits
      obtain ⟨hfits, hbank⟩ := habandon hfits
      refine ⟨⟨hpending, hfits⟩, ?_⟩
      dsimp only
      rw [hbank, show Owner.call (t.number n) = t.owner (.call n) from rfl]
      rw [show (t.bank (d.bank.abandon _ a)).rollback (t.owner (.call n)) = _ from
        (Prod.mk.inj hdrop).2]
      exact dismiss_desk t next { d with bank := _, metrics := d.metrics.recordCancelled } n
  | addBalance unit account delta => exact single hfits
  | updateAccount account balance => exact single hfits
  | deleteAccount account => exact single hfits

/-- **A cancellation is retold.** What is pending afterwards was not cancelled. -/
theorem cancel_desk (h : d.Sound spent) (hs : t.Suits (d.cancel n).2) (next : Nat) :
    t.Suits d ∧ (t.desk next d).cancel (t.number n) =
      ((d.cancel n).1, t.desk (next + 1) (d.cancel n).2) := by
  have hn : n ∉ t.numbers := by
    intro hn
    obtain ⟨r, hr⟩ := mem_numbers.1 hn
    have hafter := hs.pending _ hr
    rcases d.cancel_cases n with ⟨hl, heq⟩ | ⟨s, -, -, heq⟩
    · rw [heq] at hafter
      exact absurd (List.lookup_eq_none_iff.1 hl _ hafter) (by simp)
    · rw [heq, show (d.giveUp n s).count.pending = (d.giveUp n s).pending from rfl,
        giveUp_pending] at hafter
      exact absurd rfl (mem_dismiss.1 hafter).1
  unfold cancel at hs ⊢
  rw [lookup_desk, if_pos hn]
  cases hl : d.pending.lookup n with
  | none =>
      rw [hl] at hs
      exact ⟨⟨hs.pending, hs.fits⟩, rfl⟩
  | some r =>
      rw [hl] at hs
      obtain ⟨hstart, heq⟩ := giveUp_desk h ((lookup_eq_some_iff h.distinct).1 hl) hn
        ⟨hs.pending, hs.fits⟩ next
      refine ⟨hstart, ?_⟩
      dsimp only
      rw [heq]
      rfl

/-! ## Turns -/

section Turns

variable {e : Event} {es : List Event}

/-- An event as it is told. -/
def event (t : Retelling) : Event → Event
  | .poll n => .poll (t.number n)
  | .cancel n => .cancel (t.number n)
  | e => e

/-- The answers of a turn as they are told. -/
def turn (t : Retelling) (x : Turn) : Turn := ⟨x.response, t.replies x.ended⟩

/-- An event is not for a unit of work whose call is left out. -/
def Passes (t : Retelling) (e : Event) : Prop :=
  ∀ x ∈ t.omitted, ∀ unit action, e = .command (.onUnit unit action) → x.2.owner x.1 ≠ .unit unit

/-- **An event is retold.** -/
theorem after_desk {next : Nat} (h : d.Sound spent) (he : t.Passes e) (hnew : d.next ∉ t.numbers)
    (hnext : 0 < e.width → t.number d.next = next) (hs : t.Suits (d.after e)) :
    t.Suits d ∧ (t.desk next d).response? (t.event e) = d.response? e ∧
      (t.desk next d).after (t.event e) = t.desk (next + e.width) (d.after e) := by
  cases e with
  | command c =>
      obtain ⟨hstart, heq⟩ := submit_desk h (fun x hx unit action hc =>
        he x hx unit action (congrArg Event.command hc)) hnew (hnext Nat.one_pos) hs
      obtain ⟨hanswer, hdesk⟩ := Prod.ext_iff.1 heq
      exact ⟨hstart, congrArg some hanswer, hdesk⟩
  | poll n =>
      obtain ⟨hstart, heq⟩ := poll_desk h hs next
      obtain ⟨hanswer, hdesk⟩ := Prod.ext_iff.1 heq
      exact ⟨hstart, congrArg (Option.map Response.reply) hanswer, hdesk⟩
  | cancel n =>
      obtain ⟨hstart, heq⟩ := cancel_desk h hs next
      obtain ⟨hanswer, hdesk⟩ := Prod.ext_iff.1 heq
      exact ⟨hstart, congrArg some hanswer, hdesk⟩
  | skip => exact ⟨⟨hs.pending, hs.fits⟩, rfl, rfl⟩
  | tick now => exact ⟨⟨hs.pending, hs.fits⟩, rfl, rfl⟩

/-- **A turn is retold.** -/
theorem turn_desk (h : d.Reachable nonNegative) (he : t.Passes e) (hnew : d.next ∉ t.numbers)
    (next : Nat) (hnext : 0 < e.width → t.number d.next = next) (hs : t.Suits (d.turn e).2) :
    t.Suits d ∧ ((t.desk next d).Reachable nonNegative →
      (t.desk next d).turn (t.event e) =
        (t.turn (d.turn e).1, t.desk (next + e.width) (d.turn e).2)) := by
  obtain ⟨hmid, hsettle⟩ := settle_desk (h.after e) hs (next + e.width)
  obtain ⟨hstart, hresponse, hafter⟩ := after_desk h.sound he hnew hnext hmid
  refine ⟨hstart, fun htold => ?_⟩
  have hrest := htold.after (t.event e)
  rw [hafter] at hrest
  unfold Desk.turn
  rw [hresponse, hafter, hsettle hrest]
  rfl

/-- **A run is retold.** The numbers that it uses up are told without a gap. -/
theorem turns_desk (h : d.Reachable nonNegative) (he : ∀ e ∈ es, t.Passes e)
    (hnew : ∀ n ∈ t.numbers, n < d.next) (next : Nat)
    (hnext : ∀ n, d.next ≤ n → n < (d.turns es).2.next → t.number n = next + (n - d.next))
    (hs : t.Suits (d.turns es).2) :
    t.Suits d ∧ ((t.desk next d).Reachable nonNegative →
      (t.desk next d).turns (es.map t.event) =
        ((d.turns es).1.map t.turn,
          t.desk (next + ((d.turns es).2.next - d.next)) (d.turns es).2)) := by
  induction es generalizing d next with
  | nil =>
      refine ⟨hs, fun _ => ?_⟩
      show _ = ([], t.desk (next + (d.next - d.next)) d)
      rw [Nat.sub_self]
      rfl
  | cons e es ih =>
      have hwidth := d.next_turn e
      have hle : (d.turn e).2.next ≤ ((d.turn e).2.turns es).2.next := next_le_turns _ es
      change ∀ n, d.next ≤ n → n < ((d.turn e).2.turns es).2.next →
        t.number n = next + (n - d.next) at hnext
      obtain ⟨hmid, hrest⟩ := ih (h.turn e)
        (fun e' he' => he e' (List.mem_cons_of_mem _ he'))
        (fun n hn => (hnew n hn).trans_le (by omega)) (next + e.width)
        (fun n hn hlt => (hnext n (by omega) hlt).trans (by omega)) hs
      obtain ⟨hstart, hfirst⟩ := turn_desk h (he e (List.mem_cons_self ..))
        (fun hn => (hnew _ hn).false) next
        (fun hpos => (hnext d.next le_rfl (by omega)).trans (by omega)) hmid
      refine ⟨hstart, fun htold => ?_⟩
      have hturn := hfirst htold
      have htold' := htold.turn (t.event e)
      rw [hturn] at htold'
      have hlast : next + (((d.turn e).2.turns es).2.next - d.next) =
          next + e.width + (((d.turn e).2.turns es).2.next - (d.turn e).2.next) := by omega
      show (t.desk next d).turns (t.event e :: es.map t.event) =
        (t.turn (d.turn e).1 :: ((d.turn e).2.turns es).1.map t.turn,
          t.desk (next + (((d.turn e).2.turns es).2.next - d.next)) ((d.turn e).2.turns es).2)
      rw [turns, hturn, hrest htold', hlast]

end Turns

end Retelling

end DoubleEntry
