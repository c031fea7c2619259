import DoubleEntry.Proofs.Bystanders
import DoubleEntry.Proofs.Retold
import DoubleEntry.Proofs.Vanishing
set_option autoImplicit false

/-! # Waiting leaves no trace

A single statement that has to wait, and is cancelled while it still waits, might as well not have
been made: without it and its cancellation all other commands get the same answers, the other
pending calls end in the same order, and the bank ends up the same, up to the numbers of the
commands (`Desk.traceless_run`).

A run is retold in three parts. Before the call it is told as it is, while the call is pending the
call is left out of it, and afterwards it is told as it is again, with numbers that close the gaps.
The call enters what is told neither when it is made (`Retelling.desk_call`), since then it only
joins a queue, nor when it is cancelled (`Retelling.desk_giveUp`), since then it only leaves it.
-/

namespace DoubleEntry

/-! ## Closing gaps -/

/-- A number as it is when the number `i` is put behind all others up to `last`. -/
def putLast (i last n : Nat) : Nat :=
  if n < i ∨ last < n then n else if n = i then last else n - 1

theorem putLast_of_lt {i last n : Nat} (h : n < i) : putLast i last n = n := if_pos (.inl h)

theorem putLast_of_gt {i last n : Nat} (h : i < n) (hl : n ≤ last) : putLast i last n = n - 1 := by
  unfold putLast
  rw [if_neg (by omega), if_neg (by omega)]

theorem putLast_injective (i last : Nat) : Function.Injective (putLast i last) := by
  intro m n h
  unfold putLast at h
  split_ifs at h <;> omega

namespace Retelling

variable {g k n last : Nat}

/-- **The retelling that closes two gaps:** the numbers between the commands `g` and `k` go down by
one, and those behind `k` by two. The two themselves are put behind all others up to `last`. -/
def closing (g k last : Nat) : Retelling where
  number := putLast g last ∘ putLast k last
  injective := (putLast_injective g last).comp (putLast_injective k last)
  omitted := []
  single _ hx := nomatch hx

theorem number_before (hn : n < g) (hg : g < k) : (closing g k last).number n = n := by
  show putLast g last (putLast k last n) = n
  rw [putLast_of_lt (hn.trans hg), putLast_of_lt hn]

theorem number_between (hg : g < n) (hn : n < k) (hk : k ≤ last) :
    (closing g k last).number n = n - 1 := by
  show putLast g last (putLast k last n) = n - 1
  rw [putLast_of_lt hn, putLast_of_gt hg (hn.le.trans hk)]

theorem number_behind (hg : g < k) (hn : k < n) (hl : n ≤ last) :
    (closing g k last).number n = n - 2 := by
  show putLast g last (putLast k last n) = n - 2
  rw [putLast_of_gt hn hl, putLast_of_gt (by omega) (by omega)]
  omega

/-- The retelling with the same numbers that leaves one call out. -/
def leavingOut (t : Retelling) (n : Nat) (r : Request) (hr : ∀ run, r ≠ .transfer run) :
    Retelling where
  number := t.number
  injective := t.injective
  omitted := [(n, r)]
  single x hx := by rwa [List.mem_singleton.1 hx]

end Retelling

/-- Whoever joins a queue and leaves it again has not been there. -/
theorem Lock.leave_enqueue {l : Lock} {o : Owner} (ho : o ∉ l.waiting) :
    (l.enqueue o).leave o = l := by
  have hothers : l.waiting.filter (fun p => decide (p ≠ o)) = l.waiting :=
    List.filter_eq_self.2 fun p hp => by
      rw [decide_eq_true_eq]
      rintro rfl
      exact ho hp
  unfold Lock.enqueue
  rw [if_neg ho]
  unfold Lock.leave
  dsimp only
  rw [List.filter_append, hothers]
  simp

namespace Bank

variable {b : Bank} {o : Owner} {a : Int} {n : Nat} {r : Request}

/-- Whoever has to wait for the lock of a row is in the queue for it. -/
theorem acquire_of_waiting (h : (b.acquire o a).1 = .waiting) : ∃ l, b.locks.get? a = some l ∧
    l.holder ≠ o ∧ (b.acquire o a).2 = { b with locks := b.locks.insert a (l.enqueue o) } := by
  rcases b.acquire_cases o a with ⟨-, -, heq⟩ | ⟨-, -, heq⟩ | ⟨l, hl, ⟨-, -, heq⟩ | ⟨-, -, heq⟩ |
    ⟨hh, hw, heq⟩ | ⟨hh, -, -, heq⟩ | ⟨-, -, -, heq⟩⟩
  · rw [heq] at h; cases h
  · rw [heq] at h; cases h
  · rw [heq] at h; cases h
  · rw [heq] at h; cases h
  · refine ⟨l, hl, hh, ?_⟩
    rw [heq, show l.enqueue o = l from if_pos hw, Table.insert_eq_self hl]
  · exact ⟨l, hl, hh, by rw [heq]⟩
  · rw [heq] at h; cases h

/-- **A single statement that has to wait** joins the queue for its row, and does nothing else. -/
theorem proceed_of_waiting (hr : ∀ run, r ≠ .transfer run) (h : (r.proceed n b).1 = none) :
    ∃ a l, r.awaits? = some a ∧ b.locks.get? a = some l ∧ l.holder ≠ r.owner n ∧
      r.proceed n b = (none, r, { b with locks := b.locks.insert a (l.enqueue (r.owner n)) }) := by
  -- Whatever the statement, all that it has done is to ask for the lock.
  have queues : ∀ a, (b.acquire (r.owner n) a).1 = .waiting →
      r.proceed n b = (none, r, (b.acquire (r.owner n) a).2) →
      ∃ l, b.locks.get? a = some l ∧ l.holder ≠ r.owner n ∧ r.proceed n b =
        (none, r, { b with locks := b.locks.insert a (l.enqueue (r.owner n)) }) := by
    intro a hwaiting heq
    obtain ⟨l, hl, hh, hb⟩ := acquire_of_waiting hwaiting
    exact ⟨l, hl, hh, by rw [heq, hb]⟩
  cases r with
  | addBalance unit account delta =>
      simp only [Request.proceed, Option.map_eq_none_iff] at h
      obtain ⟨hwaiting, heq⟩ := addBalance_of_waiting h
      obtain ⟨l, hqueue⟩ := queues account hwaiting (by simp only [Request.proceed, heq]; rfl)
      exact ⟨account, l, rfl, hqueue⟩
  | updateAccount account balance =>
      simp only [Request.proceed, Option.map_eq_none_iff] at h
      obtain ⟨hwaiting, heq⟩ := updateAccount_of_waiting h
      obtain ⟨l, hqueue⟩ := queues account hwaiting (by simp only [Request.proceed, heq]; rfl)
      exact ⟨account, l, rfl, hqueue⟩
  | deleteAccount account =>
      simp only [Request.proceed, Option.map_eq_none_iff] at h
      obtain ⟨hwaiting, heq⟩ := deleteAccount_of_waiting h
      obtain ⟨l, hqueue⟩ := queues account hwaiting (by simp only [Request.proceed, heq]; rfl)
      exact ⟨account, l, rfl, hqueue⟩
  | transfer run => exact absurd rfl (hr run)

end Bank

namespace Desk

variable {nonNegative : Bool} {spent : Spent} {d : Desk} {n : Nat} {r s : Request} {c : Command}

/-- A call that has to wait is the last in a queue, and the last of the pending calls. -/
theorem Sound.call_of_blocked (h : d.Sound spent) (hr : ∀ run, r ≠ .transfer run)
    (hblocked : (d.call r).1 = .blocked) : ∃ a l, r.awaits? = some a ∧
      d.bank.locks.get? a = some l ∧ (d.call r).2 =
        { d with
          bank := { d.bank with locks := d.bank.locks.insert a (l.enqueue (r.owner d.next)) }
          pending := d.pending ++ [(d.next, r)]
          next := d.next + 1 } := by
  have hnone : (r.proceed d.next d.bank).1 = none := by
    rw [← attempt_reply]
    unfold Desk.call at hblocked
    generalize d.attempt d.next r = x at hblocked ⊢
    obtain ⟨_ | reply, d'⟩ := x
    · rfl
    · cases hblocked
  obtain ⟨a, l, ha, hl, -, hproceed⟩ := Bank.proceed_of_waiting hr hnone
  have hnew : d.pending.lookup d.next = none :=
    List.lookup_eq_none_iff.2 fun p hp => by simpa using (h.below hp).ne'
  refine ⟨a, l, ha, hl, ?_⟩
  rw [call_desk, attempt_eq, hproceed]
  dsimp only
  unfold Desk.park
  rw [hnew]
  rfl

/-- What is pending under the number of a call that had to wait is that call. -/
theorem Reachable.eq_of_pending (h : d.Reachable nonNegative) (hr : ∀ run, r ≠ .transfer run)
    (hcall : d.submit c = d.call r) (hblocked : (d.call r).1 = .blocked) (es : List Event)
    (hs : (d.next, s) ∈ ((d.turn (.command c)).2.turns es).2.pending) : s = r := by
  obtain ⟨ns, hns⟩ := d.turn_eq_afterAll (.command c)
  obtain ⟨es', hes, -⟩ := (d.turn (.command c)).2.turns_eq_afterAll es
  obtain ⟨a, l, -, -, hdesk⟩ := h.sound.call_of_blocked hr hblocked
  have hmem : (d.next, r) ∈ (d.after (.command c)).pending := by
    show (d.next, r) ∈ (d.submit c).2.pending
    rw [hcall, hdesk]
    simp
  rw [hes, hns, ← afterAll_append] at hs
  exact (h.after (.command c)).sound.pending_afterAll hmem hr (ns.map Event.poll ++ es') hs

/-- A command that is blocked is a call of somebody who does not wait already. -/
theorem Sound.submit_of_blocked (h : d.Sound spent) (hc : c.request? = some r)
    (hblocked : (d.submit c).1 = .blocked) : d.submit c = d.call r ∧
      d.awaits (r.owner d.next) = none ∧
      ∀ unit, r.owner d.next = .unit unit → d.bank.IsOpen (.unit unit) := by
  cases c with
  | updateAccount account balance =>
      obtain rfl := Option.some.inj hc
      exact ⟨rfl, h.awaits_next, fun unit e => nomatch e⟩
  | deleteAccount account =>
      obtain rfl := Option.some.inj hc
      exact ⟨rfl, h.awaits_next, fun unit e => nomatch e⟩
  | transfer n faults =>
      obtain rfl := Option.some.inj hc
      exact ⟨rfl, h.awaits_next, fun unit e => nomatch e⟩
  | onUnit unit action =>
      rcases d.submit_onUnit_cases unit action with ⟨refusal, heq⟩ | ⟨hopen, hbusy, heq⟩
      · rw [heq] at hblocked
        cases hblocked
      · cases action with
        | addBalance account delta =>
            obtain rfl := Option.some.inj hc
            exact ⟨heq, awaits_of_idle (idle_of_not_busy hbusy), fun u e => by
              rwa [← Owner.unit.inj e]⟩
        | _ => cases hc
  | _ => cases hc

/-- **Turns leave the unit of work alone** of an owner whose single statement stays pending, if none
of them is for this unit of work. -/
theorem Reachable.work?_turns (h : d.Reachable nonNegative) (hr : (n, r) ∈ d.pending)
    (hrun : ∀ run, r ≠ .transfer run) (es : List Event)
    (hs : (n, s) ∈ (d.turns es).2.pending)
    (hother : ∀ unit action, .command (.onUnit unit action) ∈ es → r.owner n ≠ .unit unit) :
    (d.turns es).2.bank.work? (r.owner n) = d.bank.work? (r.owner n) := by
  obtain ⟨es', hes, hmem⟩ := d.turns_eq_afterAll es
  rw [hes] at hs ⊢
  have hother' : ∀ unit action, .command (.onUnit unit action) ∈ es' →
      r.owner n ≠ .unit unit := fun unit action he =>
    hother unit action ((hmem _ he).resolve_right fun ⟨_, e⟩ => nomatch e)
  clear hes hmem hother
  induction es' generalizing d with
  | nil => rfl
  | cons e es' ih =>
      -- The call is pending in between, since it is afterwards.
      have hnext : n < (d.after e).next := (h.sound.below hr).trans_le (d.next_le_after e)
      obtain ⟨q, hq⟩ := pending_of_afterAll hnext es' hs
      obtain rfl := h.sound.pending_afterAll hr hrun [e] hq
      have hrest := ih (h.after e) hq hs fun unit action he =>
        hother' unit action (List.mem_cons_of_mem _ he)
      exact hrest.trans (h.sound.work?_after hr hrun hq fun unit action he =>
        hother' unit action (he ▸ List.mem_cons_self ..))

end Desk

namespace Retelling

open Desk

variable {t : Retelling} {nonNegative : Bool} {spent : Spent} {d : Desk} {b : Bank}
  {n next : Nat} {r : Request} {a : Int} {l : Lock}

/-! ## Joining and leaving a queue -/

theorem owner_leavingOut (t : Retelling) (n : Nat) (r : Request)
    (hr : ∀ run, r ≠ .transfer run) : (t.leavingOut n r hr).owner = t.owner := by
  funext o
  cases o <;> rfl

theorem lock_leavingOut (ht : t.omitted = []) (hr : ∀ run, r ≠ .transfer run) (k : Int) (l : Lock) :
    (t.leavingOut n r hr).lock k l =
      t.lock k (if r.awaits? = some k then l.leave (r.owner n) else l) := by
  have hnobody : ∀ p, t.omits k p = false := fun p => by
    unfold omits
    rw [ht]
    rfl
  have hone : ∀ p, (t.leavingOut n r hr).omits k p =
      decide (r.owner n = p ∧ r.awaits? = some k) := fun p => by
    unfold omits leavingOut
    rw [List.any_cons, List.any_nil, Bool.or_false]
  unfold lock
  rw [owner_leavingOut]
  by_cases hk : r.awaits? = some k
  · rw [if_pos hk]
    unfold Lock.leave
    dsimp only
    rw [List.filter_filter]
    congr 2
    refine List.filter_congr fun p _ => ?_
    simp [hnobody, hone, hk, eq_comm]
  · rw [if_neg hk]
    congr 2
    refine List.filter_congr fun p _ => ?_
    simp [hnobody, hone, hk]

/-- **To leave a waiting call out is to have it leave the queue.** -/
theorem bank_leavingOut (ht : t.omitted = []) (hr : ∀ run, r ≠ .transfer run)
    (ha : r.awaits? = some a) (hl : b.locks.get? a = some l) :
    (t.leavingOut n r hr).bank b =
      t.bank { b with locks := b.locks.insert a (l.leave (r.owner n)) } := by
  have hlocks : ((t.leavingOut n r hr).bank b).locks =
      (t.bank { b with locks := b.locks.insert a (l.leave (r.owner n)) }).locks := by
    apply Table.ext
    intro k
    rw [get?_locks_bank, get?_locks_bank, Table.get?_insert]
    by_cases hk : k = a
    · rw [if_pos hk, hk, hl, Option.map_some, Option.map_some, lock_leavingOut ht, if_pos ha]
    · rw [if_neg hk]
      cases b.locks.get? k with
      | none => rfl
      | some m =>
          rw [Option.map_some, Option.map_some, lock_leavingOut ht,
            if_neg fun e => hk (Option.some.inj (e.symm.trans ha))]
  exact Bank.eq_with_locks hlocks

/-- The pending calls, all of them under their numbers. -/
theorem pending_desk (ht : t.omitted = []) (next : Nat) (d : Desk) :
    (t.desk next d).pending = d.pending.map fun x => (t.number x.1, x.2) := by
  unfold desk numbers
  rw [ht]
  simp

/-- The pending calls that are not left out. -/
theorem pending_leavingOut (hr : ∀ run, r ≠ .transfer run) (next : Nat) (d : Desk) :
    ((t.leavingOut n r hr).desk next d).pending =
      (d.dismiss n).pending.map fun x => (t.number x.1, x.2) := by
  unfold desk numbers leavingOut dismiss
  simp

theorem desk_ext {d' : Desk} (hbank : d.bank = d'.bank) (hpending : d.pending = d'.pending)
    (hmetrics : d.metrics = d'.metrics) (hnext : d.next = d'.next) : d = d' := by
  obtain ⟨bank, pending, metrics, next⟩ := d
  cases hbank
  cases hpending
  cases hmetrics
  cases hnext
  rfl

/-- **A call that has to wait** does not show where it is left out. -/
theorem desk_call (ht : t.omitted = []) (h : d.Sound spent) (hr : ∀ run, r ≠ .transfer run)
    (hidle : d.awaits (r.owner d.next) = none) (hblocked : (d.call r).1 = .blocked) :
    (t.leavingOut d.next r hr).desk next (d.call r).2 = t.desk next d := by
  obtain ⟨a, l, ha, hl, hdesk⟩ := h.call_of_blocked hr hblocked
  -- It is the last in the queue, and the last of the pending calls.
  have hout : r.owner d.next ∉ l.waiting := fun hw => by
    rw [h.bank.locking.waiter hl hw] at hidle
    cases hidle
  rw [hdesk]
  refine desk_ext ?_ ?_ rfl rfl
  · have hget : (d.bank.locks.insert a (l.enqueue (r.owner d.next))).get? a =
        some (l.enqueue (r.owner d.next)) := by rw [Table.get?_insert, if_pos rfl]
    refine (bank_leavingOut ht hr ha hget).trans (congrArg t.bank ?_)
    dsimp only
    rw [Lock.leave_enqueue hout, Table.insert_insert, Table.insert_eq_self hl]
  · rw [pending_leavingOut, pending_desk ht]
    refine congrArg (List.map _) ?_
    unfold dismiss
    dsimp only
    rw [List.filter_append, List.filter_eq_self.2 fun p hp => by simpa using (h.below hp).ne]
    simp

/-- **A call that stops waiting** did not show where it was left out. -/
theorem desk_giveUp (ht : t.omitted = []) (h : d.Sound spent) (hr : ∀ run, r ≠ .transfer run)
    (hmem : (n, r) ∈ d.pending) (hn : ¬ d.Given (r.owner n)) :
    t.desk next (d.giveUp n r) = (t.leavingOut n r hr).desk next d := by
  obtain ⟨a, l, ha, -, hl, hh, -⟩ := h.queued_of_not_given hmem hn
  have habandon : d.bank.abandon (r.owner n) a =
      { d.bank with locks := d.bank.locks.insert a (l.leave (r.owner n)) } := by
    unfold Bank.abandon
    rw [hl]
    exact if_neg hh
  have hbank : (d.giveUp n r).bank = d.bank.abandon (r.owner n) a := by
    rw [giveUp_bank d ha]
    cases r with
    | transfer run => exact absurd rfl (hr run)
    | _ => rfl
  have hmetrics : (d.giveUp n r).metrics = d.metrics := by
    cases r with
    | transfer run => exact absurd rfl (hr run)
    | _ => rfl
  refine desk_ext ?_ ?_ hmetrics rfl
  · refine (congrArg t.bank (hbank.trans habandon)).trans (bank_leavingOut ht hr ha hl).symm
  · rw [pending_leavingOut, pending_desk ht, giveUp_pending]

/-! ## The two turns -/

theorem suits_of_nil (ht : t.omitted = []) (d : Desk) : t.Suits d where
  pending x hx := by
    rw [ht] at hx
    cases hx
  fits a o ho := by
    unfold omits at ho
    rw [ht] at ho
    cases ho

/-- A call that is pending and has not been given its lock can be left out. -/
theorem suits_leavingOut (h : d.Sound spent) (hr : ∀ run, r ≠ .transfer run)
    (hmem : (n, r) ∈ d.pending) (hn : ¬ d.Given (r.owner n)) :
    (t.leavingOut n r hr).Suits d where
  pending x hx := by rwa [List.mem_singleton.1 hx]
  fits a o ho := by
    obtain ⟨x, hx, e⟩ := List.any_eq_true.1 ho
    obtain rfl := List.mem_singleton.1 hx
    obtain ⟨rfl, ha⟩ := of_decide_eq_true e
    obtain ⟨k, l, hk, -, hl, hh, hw⟩ := h.queued_of_not_given hmem hn
    obtain rfl := Option.some.inj (hk.symm.trans ha)
    exact ⟨l, hl, hw, hh⟩

theorem replies_eq_nil {xs : List (Nat × Reply)} (h : t.replies xs = []) : xs = [] :=
  List.map_eq_nil_iff.1 h

/-- The turn in which a call has to wait is no turn where the call is left out. -/
theorem turn_call (ht : t.omitted = []) (h : d.Reachable nonNegative) {c : Command}
    (hc : c.request? = some r) (hr : ∀ run, r ≠ .transfer run)
    (hblocked : (d.submit c).1 = .blocked)
    (hs : (t.leavingOut d.next r hr).Suits (d.turn (.command c)).2)
    (htold : (t.desk next d).Reachable nonNegative)
    (hover : (t.desk next d).settle = ([], t.desk next d)) :
    (d.turn (.command c)).1 = ⟨some .blocked, []⟩ ∧
      (t.leavingOut d.next r hr).desk next (d.turn (.command c)).2 = t.desk next d := by
  obtain ⟨hcall, hidle, -⟩ := h.sound.submit_of_blocked hc hblocked
  have hstart : (t.leavingOut d.next r hr).desk next (d.after (.command c)) = t.desk next d := by
    show (t.leavingOut d.next r hr).desk next (d.submit c).2 = t.desk next d
    rw [hcall] at hblocked ⊢
    exact desk_call ht h.sound hr hidle hblocked
  obtain ⟨-, hsettle⟩ := settle_desk (h.after (.command c)) hs next
  rw [hstart, hover] at hsettle
  obtain ⟨hreplies, hdesk⟩ := Prod.mk.inj (hsettle htold)
  refine ⟨?_, hdesk.symm⟩
  unfold Desk.turn
  rw [replies_eq_nil hreplies.symm]
  show Turn.mk (some (d.submit c).1) [] = _
  rw [hblocked]

/-- The turn in which a call that waits is cancelled is no turn where the call was left out. -/
theorem turn_cancel (ht : t.omitted = []) (h : d.Reachable nonNegative)
    (hr : ∀ run, r ≠ .transfer run) (hmem : (n, r) ∈ d.pending) (hn : ¬ d.Given (r.owner n))
    (htold : ((t.leavingOut n r hr).desk next d).Reachable nonNegative)
    (hover : ((t.leavingOut n r hr).desk next d).settle =
      ([], (t.leavingOut n r hr).desk next d)) :
    (d.turn (.cancel n)).1 = ⟨some (.cancelled none), []⟩ ∧
      t.desk next (d.turn (.cancel n)).2 = (t.leavingOut n r hr).desk next d := by
  have hcancel : d.cancel n = (.cancelled none, (d.giveUp n r).count) := by
    unfold cancel
    rw [(lookup_eq_some_iff h.sound.distinct).2 hmem]
    cases r with
    | transfer run => exact absurd rfl (hr run)
    | _ => rfl
  have hstart : t.desk next (d.after (.cancel n)) = (t.leavingOut n r hr).desk next d := by
    show t.desk next (d.cancel n).2 = _
    rw [hcancel]
    exact desk_giveUp ht h.sound hr hmem hn
  obtain ⟨-, hsettle⟩ := settle_desk (h.after (.cancel n)) (suits_of_nil ht _) next
  rw [hstart, hover] at hsettle
  obtain ⟨hreplies, hdesk⟩ := Prod.mk.inj (hsettle htold)
  refine ⟨?_, hdesk.symm⟩
  unfold Desk.turn
  rw [replies_eq_nil hreplies.symm]
  show Turn.mk (some (d.cancel n).1) [] = _
  rw [hcancel]

/-! ## The run -/

theorem event_leavingOut (t : Retelling) (n : Nat) (r : Request)
    (hr : ∀ run, r ≠ .transfer run) : (t.leavingOut n r hr).event = t.event := by
  funext e
  cases e <;> rfl

/-- Units of work show. -/
theorem work?_of_told {d' : Desk} {hr : ∀ run, r ≠ .transfer run}
    (h : (t.leavingOut n r hr).desk next d = t.desk next d') (o : Owner) :
    d.bank.work? o = d'.bank.work? o := by
  have hbank : (t.leavingOut n r hr).bank d.bank = t.bank d'.bank := congrArg Desk.bank h
  calc d.bank.work? o
      = ((t.leavingOut n r hr).bank d.bank).work? ((t.leavingOut n r hr).owner o) :=
        (work?_bank _ _ o).symm
    _ = (t.bank d'.bank).work? (t.owner o) := by rw [hbank, owner_leavingOut]
    _ = d'.bank.work? o := work?_bank t _ o

/-- Pending calls show, except the one that is left out. -/
theorem pending_of_told {d' : Desk} {hr : ∀ run, r ≠ .transfer run} (ht : t.omitted = [])
    (h : t.desk next d' = (t.leavingOut n r hr).desk next d) :
    d'.pending = (d.dismiss n).pending := by
  have hsame := congrArg Desk.pending h
  rw [pending_desk ht, pending_leavingOut] at hsame
  refine List.map_injective_iff.2 (fun x y e => ?_) hsame
  obtain ⟨hnumber, hrequest⟩ := Prod.mk.inj e
  exact Prod.ext (t.injective hnumber) hrequest

/-- Turns are told between turns. -/
theorem told_turns {d d' : Desk} {es : List Event} {xs : List Turn} {next next' : Nat}
    (hrun : d.turns es = (xs, d')) (hs : t.Suits d') (h : d.Reachable nonNegative)
    (told : (t.desk next d).Over nonNegative) (he : ∀ e ∈ es, t.Passes e)
    (hnew : ∀ n ∈ t.numbers, n < d.next)
    (hnext : ∀ n, d.next ≤ n → n < d'.next → t.number n = next + (n - d.next))
    (hlast : next' = next + (d'.next - d.next)) :
    (t.desk next d).turns (es.map t.event) = (xs.map t.turn, t.desk next' d') ∧
      (t.desk next' d').Over nonNegative := by
  have htold := turns_desk h he hnew next (by rwa [hrun]) (by rwa [hrun])
  rw [hrun, ← hlast] at htold
  have heq := htold.2 told.reachable
  have hafter := told.turns (es.map t.event)
  rw [heq] at hafter
  exact ⟨heq, hafter⟩

end Retelling

namespace Desk

/-- **An owner that has stopped waiting** has locked, pinned and staged what it had before, waits in
no queue, has the locks of the rows that it has locked and no others, and can go on. -/
structure Resumes (o : Owner) (d d' : Desk) : Prop where
  work : d'.bank.work? o = d.bank.work? o
  locks : ∀ {a l}, d'.bank.locks.get? a = some l →
    o ∉ l.waiting ∧ (l.holder = o ↔ a ∈ d.bank.heldBy o)
  usable : ∀ {unit}, o = .unit unit → d'.unavailable? unit = none

theorem Sound.resumes {spent : Spent} {o : Owner} {d d' : Desk} (h : d'.Sound spent)
    (hidle : ∀ {m s}, (m, s) ∈ d'.pending → s.owner m ≠ o)
    (hwork : d'.bank.work? o = d.bank.work? o)
    (hopen : ∀ unit, o = .unit unit → d.bank.IsOpen (.unit unit)) : d.Resumes o d' where
  work := hwork
  locks := by
    intro a l hl
    have hawaits : d'.awaits o = none := awaits_of_idle hidle
    have hheld : d'.bank.heldBy o = d.bank.heldBy o := by
      unfold Bank.heldBy Bank.work
      rw [hwork]
    refine ⟨fun hw => ?_, fun hh => ?_, fun ha => ?_⟩
    · rw [h.bank.locking.waiter hl hw] at hawaits
      cases hawaits
    · subst hh
      rw [← hheld]
      refine (h.bank.locking.holder hl).resolve_right fun e => ?_
      rw [hawaits] at e
      cases e
    · rw [← hheld] at ha
      obtain ⟨m, hm, hh⟩ := h.bank.locking.held ha
      rwa [Option.some.inj (hl.symm.trans hm)]
  usable := by
    rintro unit rfl
    refine unavailable?_eq_none.2 ⟨?_, fun hbusy => ?_⟩
    · unfold Bank.IsOpen
      rw [hwork]
      exact hopen unit rfl
    · obtain ⟨⟨m, s⟩, hs, e⟩ := List.any_eq_true.1 hbusy
      refine hidle hs ?_
      cases s with
      | addBalance u account delta => exact congrArg Owner.unit (of_decide_eq_true e)
      | _ => cases e

/-- **Nothing is left** of a call that was left out as long as it was pending, and was cancelled:
neither in its unit of work nor in a queue. -/
theorem resumes_of_told {spent : Spent} {t : Retelling} {n next next' : Nat} {r : Request}
    {hr : ∀ run, r ≠ .transfer run} {d₀ d₁ d₂ d₃ : Desk} (ht : t.omitted = [])
    (told₁ : (t.leavingOut n r hr).desk next d₁ = t.desk next d₀)
    (told₃ : t.desk next' d₃ = (t.leavingOut n r hr).desk next' d₂)
    (hbetween : d₂.bank.work? (r.owner n) = d₁.bank.work? (r.owner n))
    (distinct : Distinct d₂.pending) (hmem : (n, r) ∈ d₂.pending) (h : d₃.Sound spent)
    (hopen : ∀ unit, r.owner n = .unit unit → d₀.bank.IsOpen (.unit unit)) :
    d₀.Resumes (r.owner n) d₃ := by
  have hwork : d₃.bank.work? (r.owner n) = d₀.bank.work? (r.owner n) := by
    calc d₃.bank.work? (r.owner n)
        = d₂.bank.work? (r.owner n) := (Retelling.work?_of_told told₃.symm _).symm
      _ = d₁.bank.work? (r.owner n) := hbetween
      _ = d₀.bank.work? (r.owner n) := Retelling.work?_of_told told₁ _
  refine h.resumes (fun {m s} hs e => ?_) hwork hopen
  rw [Retelling.pending_of_told ht told₃] at hs
  obtain ⟨hm, hs⟩ := mem_dismiss.1 hs
  exact hm (distinct.owners hs hmem e)

/-- **Waiting leaves no trace.** A command starts a single statement that is blocked, and this is
cancelled while it is still pending, without anything having been done in the same unit of work in
between. Then nothing else ends in the two turns. In the run without them the other events get the
same answers, the other pending calls end in the same order, and the desk ends up the same, all of
it up to the numbers of the commands; what is committed is the same without regard to these. After
the cancellation the owner has what it had before the call. -/
theorem traceless_run (nonNegative : Bool) (es₁ es₂ es₃ : List Event) {c : Command} {r : Request}
    {d₀ d₁ d₂ d₃ d₄ : Desk} {xs₁ xs₂ xs₃ : List Turn} {x y : Turn}
    (before : (opening nonNegative).turns es₁ = (xs₁, d₀))
    (call : d₀.turn (.command c) = (x, d₁)) (hc : c.request? = some r)
    (single : ∀ run, r ≠ .transfer run) (blocked : x.response = some .blocked)
    (between : d₁.turns es₂ = (xs₂, d₂))
    (others : ∀ unit action, .command (.onUnit unit action) ∈ es₂ → r.owner d₀.next ≠ .unit unit)
    (pending : d₀.next ∈ d₂.pending.map Prod.fst)
    (cancelled : d₂.turn (.cancel d₀.next) = (y, d₃)) (behind : d₃.turns es₃ = (xs₃, d₄)) :
    let t := Retelling.closing d₀.next d₂.next d₄.next
    x = ⟨some .blocked, []⟩ ∧ y = ⟨some (.cancelled none), []⟩ ∧
      (opening nonNegative).turns ((es₁ ++ es₂ ++ es₃).map t.event) =
        ((xs₁ ++ xs₂ ++ xs₃).map t.turn, t.desk (d₄.next - 2) d₄) ∧
      (t.desk (d₄.next - 2) d₄).bank.ledger = d₄.bank.ledger ∧
      d₀.Resumes (r.owner d₀.next) d₃ := by
  intro t
  have ht : t.omitted = [] := rfl
  obtain ⟨over₀, -⟩ := (over_opening nonNegative).of_turns before
  obtain ⟨over₁, hnext₁⟩ := over₀.of_turn call
  obtain ⟨over₂, hnext₂⟩ := over₁.of_turns between
  obtain ⟨over₃, hnext₃⟩ := over₂.of_turn cancelled
  obtain ⟨-, hnext₄⟩ := over₃.of_turns behind
  -- The numbers go on by one in each of the two turns.
  replace hnext₁ : d₁.next = d₀.next + 1 := hnext₁
  replace hnext₃ : d₃.next = d₂.next + 1 := hnext₃
  -- What is cancelled is the call that was blocked, and it still waits.
  have hsubmit : (d₀.submit c).1 = .blocked := by
    have h := congrArg (fun z => z.1.response) call
    exact Option.some.inj (h.trans blocked)
  obtain ⟨hcall, hidle, hopen⟩ := over₀.reachable.sound.submit_of_blocked hc hsubmit
  have hmem : (d₀.next, r) ∈ d₂.pending := by
    obtain ⟨⟨m, s⟩, hs, rfl⟩ := List.mem_map.1 pending
    have h := over₀.reachable.eq_of_pending single hcall (hcall ▸ hsubmit) es₂ (s := s)
    rw [call, between] at h
    rwa [← h hs]
  have hsuits₂ := Retelling.suits_leavingOut (t := t) over₂.reachable.sound single hmem
    (over₂.unserved _)
  -- Before the call the run is told as it is.
  have part₁ : (opening nonNegative).turns (es₁.map t.event) =
      (xs₁.map t.turn, t.desk d₀.next d₀) ∧ (t.desk d₀.next d₀).Over nonNegative :=
    Retelling.told_turns before (Retelling.suits_of_nil ht _) .opening (over_opening nonNegative)
      (fun _ _ _ hx => nomatch hx) (fun _ hn => nomatch hn)
      (fun n _ hn => (Retelling.number_before hn (by omega)).trans (Nat.zero_add _).symm)
      (Nat.zero_add _).symm
  obtain ⟨hrun₁, told₁⟩ := part₁
  -- While the call is pending, it is left out, and so is nothing else.
  have hpasses : ∀ e ∈ es₂, (t.leavingOut d₀.next r single).Passes e := by
    rintro e he x hx unit action rfl
    rw [List.mem_singleton.1 hx]
    exact others unit action he
  have hbelow : ∀ n ∈ (t.leavingOut d₀.next r single).numbers, n < d₁.next := by
    intro n hn
    rw [List.mem_singleton.1 hn, hnext₁]
    exact Nat.lt_succ_self _
  have hnumber : ∀ n, d₁.next ≤ n → n < d₂.next →
      (t.leavingOut d₀.next r single).number n = d₀.next + (n - d₁.next) := fun n hn hlt =>
    (Retelling.number_between (by omega) hlt (by omega)).trans (by omega)
  obtain ⟨hsuits₁, -⟩ := Retelling.turns_desk over₁.reachable hpasses hbelow d₀.next
    (by rwa [between]) (by rwa [between])
  obtain ⟨hx, hdesk₁⟩ := Retelling.turn_call ht over₀.reachable hc single hsubmit
    (by rwa [call]) told₁.reachable told₁.settle
  rw [call] at hx hdesk₁
  dsimp only at hx hdesk₁
  have part₂ : (t.desk d₀.next d₀).turns (es₂.map t.event) =
      (xs₂.map t.turn, (t.leavingOut d₀.next r single).desk (d₂.next - 1) d₂) ∧
        ((t.leavingOut d₀.next r single).desk (d₂.next - 1) d₂).Over nonNegative := by
    rw [← hdesk₁] at told₁ ⊢
    rw [← Retelling.event_leavingOut t d₀.next r single]
    exact Retelling.told_turns between hsuits₂ over₁.reachable told₁ hpasses hbelow hnumber
      (by omega)
  obtain ⟨hrun₂, told₂⟩ := part₂
  -- Afterwards the run is told as it is again.
  obtain ⟨hy, hdesk₃⟩ := Retelling.turn_cancel ht over₂.reachable single hmem (over₂.unserved _)
    told₂.reachable told₂.settle
  rw [cancelled] at hy hdesk₃
  dsimp only at hy hdesk₃
  have part₃ : ((t.leavingOut d₀.next r single).desk (d₂.next - 1) d₂).turns (es₃.map t.event) =
      (xs₃.map t.turn, t.desk (d₄.next - 2) d₄) := by
    rw [← hdesk₃] at told₂ ⊢
    refine (Retelling.told_turns behind (Retelling.suits_of_nil ht _) over₃.reachable
      told₂ (fun _ _ _ hx => nomatch hx) (fun _ hn => nomatch hn) (fun n hn hlt => ?_) ?_).1
    · exact (Retelling.number_behind (by omega) (by omega) (by omega)).trans (by omega)
    · omega
  refine ⟨hx, hy, ?_, rfl, ?_⟩
  · rw [List.map_append, List.map_append, turns_append, turns_append, hrun₁]
    dsimp only
    rw [hrun₂]
    dsimp only
    rw [part₃, List.map_append, List.map_append]
  · have hmem₁ : (d₀.next, r) ∈ d₁.pending := hsuits₁.pending _ (List.mem_singleton.2 rfl)
    have hbetween := over₁.reachable.work?_turns hmem₁ single es₂ (by rwa [between]) others
    rw [between] at hbetween
    exact resumes_of_told ht hdesk₁ hdesk₃ hbetween over₂.reachable.sound.distinct hmem
      over₃.reachable.sound hopen

/-- A unit of work waits for a row that another one has locked, and a call to change the account
waits behind it. The waiting is given up before the row is free. -/
theorem traceless_run_queued :
    let es₁ : List Event := [.command (.createAccount ⟨"a", 100, .usd⟩), .command (.begin "u"),
      .command (.begin "v"), .command (.onUnit "u" (.addBalance 1 5)),
      .command (.onUnit "v" (.createEntry ⟨1, 3⟩))]
    let es₂ : List Event := [.command (.updateAccount 1 9), .command (.begin "v"),
      .command (.onUnit "u" (.addBalance 1 2))]
    let es₃ : List Event := [.command (.onUnit "u" .commit),
      .command (.onUnit "v" (.addBalance 1 7)), .command (.onUnit "v" .commit)]
    let d₀ := ((opening true).turns es₁).2
    let call := d₀.turn (.command (.onUnit "v" (.addBalance 1 3)))
    let between := call.2.turns es₂
    let cancelled := between.2.turn (.cancel d₀.next)
    let behind := cancelled.2.turns es₃
    let t := Retelling.closing d₀.next between.2.next behind.2.next
    call.1 = ⟨some .blocked, []⟩ ∧ cancelled.1 = ⟨some (.cancelled none), []⟩ ∧
      (opening true).turns ((es₁ ++ es₂ ++ es₃).map t.event) =
        ((((opening true).turns es₁).1 ++ between.1 ++ behind.1).map t.turn,
          t.desk (behind.2.next - 2) behind.2) ∧
      (t.desk (behind.2.next - 2) behind.2).bank.ledger = behind.2.bank.ledger ∧
      d₀.Resumes (.unit "v") cancelled.2 ∧
      behind.1.map Turn.ended = [[(6, .done (.account ⟨1, "a", 9, "USD", .epoch⟩))], [], []] := by
  intro es₁ es₂ es₃ d₀ call between cancelled behind t
  have hblocked : call.1.response = some .blocked := by decide +kernel
  have hothers : ∀ unit action, .command (.onUnit unit action) ∈ es₂ →
      (Request.addBalance "v" 1 3).owner d₀.next ≠ .unit unit := by
    rintro unit action he e
    obtain rfl : "v" = unit := Owner.unit.inj e
    simp [es₂] at he
  have hpending : d₀.next ∈ between.2.pending.map Prod.fst := by decide +kernel
  have hbefore : (opening true).turns es₁ = (((opening true).turns es₁).1, d₀) := Prod.mk.eta.symm
  obtain ⟨hcall, hcancelled, hwithout, hledger, hresumes⟩ := traceless_run true es₁ es₂ es₃ hbefore
    (Prod.mk.eta (p := call)).symm rfl (fun _ => Request.noConfusion) hblocked
    (Prod.mk.eta (p := between)).symm hothers hpending (Prod.mk.eta (p := cancelled)).symm
    (Prod.mk.eta (p := behind)).symm
  exact ⟨hcall, hcancelled, hwithout, hledger, hresumes, by decide +kernel⟩

end Desk

end DoubleEntry
