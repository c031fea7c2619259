import DoubleEntry.Proofs.Deadlock
import DoubleEntry.Proofs.Waiting
set_option autoImplicit false

/-! # Asking the pending calls in turn

`Desk.settle` asks all pending calls, round after round, until a round ends none of them. Each round
but the last ends a call, so there are enough rounds (`Desk.Reachable.settleFor_eq_settle`). In a
round without replies no lock is given to a call that has been asked already
(`Desk.Reachable.silent_round`), so that after the last round no pending call gets any further
(`Desk.Reachable.stuck_settle`).
-/

namespace DoubleEntry

open Function (update update_self update_of_ne)

/-- A single statement stays the same while it waits. -/
theorem Request.proceed_of_single {n : Nat} {r : Request} {b : Bank}
    (hr : ∀ run, r ≠ .transfer run) : (r.proceed n b).2.1 = r := by
  cases r with
  | transfer run => exact absurd rfl (hr run)
  | _ => rfl

namespace Desk

variable {nonNegative : Bool} {spent : Spent} {d : Desk} {n m : Nat} {r s : Request} {o p : Owner}
  {a : Int} {ns : List Nat}

/-! ## One call -/

/-- An owner that waits has been given the lock, and has not found out yet. -/
def Given (d : Desk) (o : Owner) : Prop := ∃ a, d.awaits o = some a ∧ d.bank.Served o a

/-- The pending calls, with who asks for the locks. -/
def askers (d : Desk) : List (Nat × Owner) := d.pending.map fun x => (x.1, x.2.owner x.1)

theorem mem_askers (hr : (n, r) ∈ d.pending) : (n, r.owner n) ∈ d.askers :=
  List.mem_map.2 ⟨_, hr, rfl⟩

/-- A call that is pending already keeps its place. -/
theorem pending_park (hr : (n, r) ∈ d.pending) (s : Request) : (d.park n s).pending =
    d.pending.map fun x => if x.1 = n then (n, s) else x := by
  have hsome : (d.pending.lookup n).isSome := by
    cases hl : d.pending.lookup n with
    | none => exact absurd (List.lookup_eq_none_iff.1 hl _ hr) (by simp)
    | some s => rfl
  unfold park
  rw [if_pos hsome]

theorem askers_park (hr : (n, r) ∈ d.pending) (hs : s.owner n = r.owner n)
    (h : Distinct d.pending) : (d.park n s).askers = d.askers := by
  unfold askers
  rw [pending_park hr, List.map_map]
  refine List.map_congr_left fun x hx => ?_
  obtain ⟨m, q⟩ := x
  by_cases hm : m = n
  · subst hm
    rw [Function.comp_apply, if_pos rfl, hs, h.eq hr hx]
  · rw [Function.comp_apply, if_neg hm]

/-- Nothing changes when a call is noted again. -/
theorem park_self (hr : (n, r) ∈ d.pending) (h : Distinct d.pending) : d.park n r = d := by
  have hpending : (d.park n r).pending = d.pending := by
    rw [pending_park hr]
    conv_rhs => rw [← List.map_id d.pending]
    refine List.map_congr_left fun x hx => ?_
    obtain ⟨m, q⟩ := x
    by_cases hm : m = n
    · subst hm
      rw [if_pos rfl, h.eq hr hx]
      rfl
    · rw [if_neg hm]
      rfl
  rw [show d.park n r = { d with bank := d.bank }.park n r from rfl, park_eq, hpending]

theorem length_dismiss (hr : (n, r) ∈ d.pending) (h : Distinct d.pending) :
    (d.dismiss n).pending.length + 1 = d.pending.length := by
  have hcount : (d.pending.map Prod.fst).count n = 1 :=
    List.count_eq_one_of_mem h.numbers (List.mem_map.2 ⟨_, hr, rfl⟩)
  have hsplit := List.length_eq_length_filter_add (l := d.pending) fun x => decide (x.1 ≠ n)
  have hone : (d.pending.filter fun x => !decide (x.1 ≠ n)).length = 1 := by
    rw [← hcount, ← List.countP_eq_length_filter, List.count, List.countP_map]
    congr 1
    funext x
    simp [beq_eq_decide]
  unfold dismiss
  dsimp only
  omega

/-- A call that has not been given its lock is in the queue for it. -/
theorem Sound.queued_of_not_given (h : d.Sound spent) (hr : (n, r) ∈ d.pending)
    (hn : ¬ d.Given (r.owner n)) : ∃ a l, r.awaits? = some a ∧ a ∉ d.bank.heldBy (r.owner n) ∧
      d.bank.locks.get? a = some l ∧ l.holder ≠ r.owner n ∧ r.owner n ∈ l.waiting := by
  obtain ⟨a, ha⟩ := Option.isSome_iff_exists.1 (h.waits hr)
  have hawaits := (awaits_of_mem h.distinct hr).trans ha
  obtain ⟨hheld, l, hl, hasked⟩ := h.bank.locking.asked hawaits
  have hh : l.holder ≠ r.owner n := fun hh => hn ⟨a, hawaits, l, hl, hh⟩
  exact ⟨a, l, ha, hheld, hl, hh, hasked.resolve_left hh⟩

/-- **A call that has not been given its lock** goes on waiting, and nothing changes. -/
theorem Sound.poll_of_not_given (h : d.Sound spent) (hr : (n, r) ∈ d.pending)
    (hn : ¬ d.Given (r.owner n)) : d.poll n = (none, d) := by
  obtain ⟨a, l, ha, hheld, hl, hh, hw⟩ := h.queued_of_not_given hr hn
  rw [poll_of_mem h.distinct hr, attempt_eq,
    Bank.proceed_of_queued (h.parked hr) ha hheld hl hh hw]
  exact congrArg (Prod.mk none) (park_self hr h.distinct)

/-- **A single statement that goes on waiting** leaves everything as it was. -/
theorem Sound.poll_of_single (h : d.Sound spent) (hr : (n, r) ∈ d.pending)
    (hrun : ∀ run, r ≠ .transfer run) (hnone : (d.poll n).1 = none) : d.poll n = (none, d) := by
  refine h.poll_of_not_given hr fun ⟨a, ha, hserved⟩ => ?_
  rw [poll_of_mem h.distinct hr, attempt_reply] at hnone
  obtain ⟨k, hk, hwaiting⟩ := Bank.waiting_proceed hnone
  -- It would have kept the lock, and it has not got it.
  rw [awaits_of_mem h.distinct hr] at ha
  rw [Request.proceed_of_single hrun, ha] at hk
  obtain rfl := Option.some.inj hk
  exact hwaiting.unserved (hwaiting.holdsOn a hserved)

/-- **A call that goes on waiting** has not been given its lock, nor has anybody else meanwhile. -/
theorem Sound.silent_poll (h : d.Sound spent) (hnone : (d.poll n).1 = none) :
    (d.poll n).2.askers = d.askers ∧
      ∀ p, (d.poll n).2.Given p → d.Given p ∧ (n, p) ∉ d.askers := by
  rcases d.poll_cases n with ⟨hl, heq⟩ | ⟨r, hr, -, heq⟩
  · rw [heq]
    refine ⟨rfl, fun p hp => ⟨hp, fun hmem => ?_⟩⟩
    obtain ⟨x, hx, hxn⟩ := List.mem_map.1 hmem
    exact absurd (List.lookup_eq_none_iff.1 hl _ hx) (by simp [(Prod.mk.inj hxn).1])
  · have hup : d.Up n r := h.distinct.up hr
    have hstays := (h.canProceed hr).proceed h.bank h.fresh
    have hwaiting := Bank.waiting_proceed (b := d.bank) (n := n) (r := r)
    rw [heq] at hnone ⊢
    rw [attempt_reply] at hnone
    rw [attempt_eq]
    generalize r.proceed n d.bank = x at hnone hstays hwaiting ⊢
    obtain ⟨answer, r', bank⟩ := x
    obtain rfl : answer = none := hnone
    obtain ⟨a, ha, hkeeps, hunserved⟩ := hwaiting rfl
    have howner : r'.owner n = r.owner n := hstays.owner
    have hup' : d.Up n r' := fun hs => by rw [howner]; exact hup hs
    dsimp only at ha hkeeps hunserved ⊢
    have hawaits : ({ d with bank }.park n r').awaits =
        update d.awaits (r.owner n) r'.awaits? := by
      rw [← howner]
      exact awaits_park (d := { d with bank }) h.distinct hup'
    have hbank : ({ d with bank }.park n r').bank = bank := by rw [park_eq]
    refine ⟨askers_park (d := { d with bank }) hr howner h.distinct, fun p hp => ?_⟩
    obtain ⟨k, hk, hserved⟩ := hp
    rw [hawaits] at hk
    rw [hbank] at hserved
    -- The call itself waits for a lock that it has not got.
    have hne : p ≠ r.owner n := by
      rintro rfl
      rw [update_self] at hk
      obtain rfl := Option.some.inj (ha.symm.trans hk)
      exact hunserved hserved
    rw [update_of_ne hne] at hk
    refine ⟨⟨k, hk, hstays.within.served hkeeps hne hserved⟩, fun hmem => hne ?_⟩
    obtain ⟨x, hx, hxn⟩ := List.mem_map.1 hmem
    obtain ⟨hnumber, hpo⟩ := Prod.mk.inj hxn
    obtain ⟨m, q⟩ := x
    obtain rfl : m = n := hnumber
    rw [← hpo, h.distinct.eq hr hx]

/-- A call that replies is pending no more. -/
theorem Sound.length_poll (h : d.Sound spent) {reply : Reply} (hreply : (d.poll n).1 = some reply) :
    (d.poll n).2.pending.length + 1 = d.pending.length := by
  rcases d.poll_cases n with ⟨-, heq⟩ | ⟨r, hr, -, heq⟩
  · rw [heq] at hreply
    cases hreply
  · rw [heq] at hreply ⊢
    rw [attempt_reply] at hreply
    rw [attempt_eq]
    generalize r.proceed n d.bank = x at hreply ⊢
    obtain ⟨answer, r', bank⟩ := x
    obtain rfl : answer = some reply := hreply
    exact length_dismiss hr h.distinct

/-- A pending call stays pending until it replies. -/
theorem pending_poll (m : Nat) (hr : (n, r) ∈ d.pending) :
    (m = n ∧ ∃ reply, (d.poll m).1 = some reply) ∨ ∃ r', (n, r') ∈ (d.poll m).2.pending := by
  rcases d.poll_cases m with ⟨-, heq⟩ | ⟨s, hs, -, heq⟩
  · rw [heq]
    exact .inr ⟨r, hr⟩
  · rw [heq, attempt_eq]
    obtain ⟨_ | reply, s', bank⟩ := s.proceed m d.bank
    · dsimp only
      rw [park_eq]
      by_cases hmn : m = n
      · exact .inr ⟨s', mem_park.2 (.inl ⟨hmn.symm, rfl⟩)⟩
      · exact .inr ⟨r, mem_park.2 (.inr ⟨Ne.symm hmn, hr⟩)⟩
    · by_cases hmn : m = n
      · exact .inl ⟨hmn, reply, rfl⟩
      · exact .inr ⟨r, mem_dismiss.2 ⟨Ne.symm hmn, hr⟩⟩

/-! ## One round -/

theorem pollEach_cons (d : Desk) (n : Nat) (ns : List Nat) : d.pollEach (n :: ns) =
    (((d.poll n).1.toList.map fun reply => (n, reply)) ++ ((d.poll n).2.pollEach ns).1,
      ((d.poll n).2.pollEach ns).2) := by
  rw [pollEach]
  rcases d.poll n with ⟨_ | reply, d'⟩ <;> rfl

/-- A round is a sequence of events. -/
theorem pollEach_eq_afterAll (d : Desk) (ns : List Nat) :
    (d.pollEach ns).2 = d.afterAll (ns.map .poll) := by
  induction ns generalizing d with
  | nil => rfl
  | cons n ns ih =>
      rw [pollEach_cons]
      exact ih _

theorem reply_of_pollEach {x : Nat × Reply} (hx : x ∈ (d.pollEach ns).1) :
    ∃ ms : List Nat, ((d.afterAll (ms.map .poll)).poll x.1).1 = some x.2 := by
  induction ns generalizing d with
  | nil => cases hx
  | cons n ns ih =>
      rw [pollEach_cons] at hx
      rcases List.mem_append.1 hx with hx | hx
      · obtain ⟨reply, hreply, rfl⟩ := List.mem_map.1 hx
        exact ⟨[], Option.mem_toList.1 hreply⟩
      · obtain ⟨ms, hms⟩ := ih hx
        exact ⟨n :: ms, hms⟩

theorem pending_pollEach (ns : List Nat) (hr : (n, r) ∈ d.pending) :
    (∃ reply, (n, reply) ∈ (d.pollEach ns).1) ∨ ∃ r', (n, r') ∈ (d.pollEach ns).2.pending := by
  induction ns generalizing d r with
  | nil => exact .inr ⟨r, hr⟩
  | cons m ns ih =>
      rw [pollEach_cons]
      rcases pending_poll m hr with ⟨rfl, reply, hreply⟩ | ⟨r', hr'⟩
      · refine .inl ⟨reply, List.mem_append_left _ ?_⟩
        rw [hreply]
        exact List.mem_singleton.2 rfl
      · exact (ih hr').imp_left fun ⟨reply, hmem⟩ => ⟨reply, List.mem_append_right _ hmem⟩

namespace Reachable

/-- **In a round without replies** nobody is given a lock, and whoever is asked waits for somebody
else. -/
theorem silent_round (h : d.Reachable nonNegative) (hnone : (d.pollEach ns).1 = []) :
    (d.pollEach ns).2.askers = d.askers ∧
      ∀ p, (d.pollEach ns).2.Given p → d.Given p ∧ ∀ n ∈ ns, (n, p) ∉ d.askers := by
  induction ns generalizing d with
  | nil => exact ⟨rfl, fun p hp => ⟨hp, by simp⟩⟩
  | cons n ns ih =>
      rw [pollEach_cons] at hnone ⊢
      obtain ⟨hfirst, hrest⟩ := List.append_eq_nil_iff.1 hnone
      have hsilent : (d.poll n).1 = none := by
        cases hp : (d.poll n).1 with
        | none => rfl
        | some reply => rw [hp] at hfirst; cases hfirst
      obtain ⟨haskers, hgiven⟩ := h.sound.silent_poll hsilent
      obtain ⟨haskers', hgiven'⟩ := ih (h.poll n) hrest
      refine ⟨haskers'.trans haskers, fun p hp => ?_⟩
      obtain ⟨hp, hothers⟩ := hgiven' p hp
      obtain ⟨hp, hself⟩ := hgiven p hp
      rw [haskers] at hothers
      exact ⟨hp, List.forall_mem_cons.2 ⟨hself, hothers⟩⟩

/-- As many calls are pending no more as have replied. -/
theorem length_round (h : d.Reachable nonNegative) (ns : List Nat) :
    (d.pollEach ns).1.length + (d.pollEach ns).2.pending.length = d.pending.length := by
  induction ns generalizing d with
  | nil => exact Nat.zero_add _
  | cons n ns ih =>
      have hrest := ih (h.poll n)
      rw [pollEach_cons]
      dsimp only
      rw [List.length_append]
      cases hp : (d.poll n).1 with
      | none =>
          have hsame := congrArg List.length (h.sound.silent_poll hp).1
          unfold askers at hsame
          rw [List.length_map, List.length_map] at hsame
          simp only [Option.toList_none, List.map_nil, List.length_nil]
          omega
      | some reply =>
          have hless := h.sound.length_poll hp
          simp only [Option.toList_some, List.map_cons, List.map_nil, List.length_cons,
            List.length_nil]
          omega

/-- Nobody gets any further unless somebody has been given a lock. -/
theorem stuck_of_not_given (h : d.Reachable nonNegative) (hnone : ∀ p, ¬ d.Given p) : d.Stuck :=
  fun _ hx => h.sound.poll_of_not_given hx (hnone _)

/-- After a round without replies, in which all pending calls are asked, nobody has been given a
lock. -/
theorem not_given_round (h : d.Reachable nonNegative)
    (hnone : (d.pollEach (d.pending.map Prod.fst)).1 = []) (p : Owner) :
    ¬ (d.pollEach (d.pending.map Prod.fst)).2.Given p := by
  intro hp
  obtain ⟨-, hgiven⟩ := h.silent_round hnone
  obtain ⟨⟨a, ha, -⟩, hothers⟩ := hgiven p hp
  obtain ⟨n, r, hr, rfl, -⟩ := (awaits_eq_some_iff h.sound.distinct).1 ha
  exact hothers n (List.mem_map.2 ⟨_, hr, rfl⟩) (mem_askers hr)

/-! ## All rounds -/

/-- A round in which a call replies leaves fewer rounds to go. -/
theorem pending_lt_of_round (h : d.Reachable nonNegative)
    (hsome : (d.pollEach (d.pending.map Prod.fst)).1.isEmpty = false) :
    (d.pollEach (d.pending.map Prod.fst)).2.pending.length < d.pending.length := by
  have hlength := h.length_round (d.pending.map Prod.fst)
  have hpos : 0 < (d.pollEach (d.pending.map Prod.fst)).1.length :=
    List.length_pos_iff.2 fun e => by rw [e] at hsome; cases hsome
  omega

theorem not_given_settleFor {fuel : Nat} (h : d.Reachable nonNegative)
    (enough : d.pending.length < fuel) (p : Owner) : ¬ (Desk.settleFor fuel d).2.Given p := by
  induction fuel generalizing d with
  | zero => exact absurd enough (Nat.not_lt_zero _)
  | succ fuel ih =>
      simp only [Desk.settleFor]
      split
      · rename_i hempty
        exact h.not_given_round (List.isEmpty_iff.1 hempty) p
      · rename_i hsome
        have hless := h.pending_lt_of_round (Bool.eq_false_iff.2 hsome)
        exact ih (h.pollEach _) (by omega)

/-- As soon as there are more rounds than pending calls, it does not matter how many there are. -/
theorem settleFor_eq_settleFor {fuel fuel' : Nat} (h : d.Reachable nonNegative)
    (enough : d.pending.length < fuel) (enough' : d.pending.length < fuel') :
    Desk.settleFor fuel d = Desk.settleFor fuel' d := by
  induction fuel generalizing d fuel' with
  | zero => exact absurd enough (Nat.not_lt_zero _)
  | succ fuel ih =>
      obtain ⟨fuel', rfl⟩ := Nat.exists_eq_succ_of_ne_zero (Nat.ne_zero_of_lt enough')
      simp only [Desk.settleFor]
      split
      · rfl
      · rename_i hsome
        have hless := h.pending_lt_of_round (Bool.eq_false_iff.2 hsome)
        have hsame : Desk.settleFor fuel (d.pollEach (d.pending.map Prod.fst)).2 =
            Desk.settleFor fuel' (d.pollEach (d.pending.map Prod.fst)).2 :=
          ih (h.pollEach _) (by omega) (by omega)
        rw [hsame]

/-- **There are enough rounds:** more of them change nothing. -/
theorem settleFor_eq_settle {fuel : Nat} (h : d.Reachable nonNegative)
    (enough : d.pending.length < fuel) : Desk.settleFor fuel d = d.settle :=
  h.settleFor_eq_settleFor enough (Nat.lt_succ_self _)

/-- When the rounds are over, nobody has been given a lock without having found out. -/
theorem not_given_settle (h : d.Reachable nonNegative) (p : Owner) : ¬ d.settle.2.Given p :=
  h.not_given_settleFor (Nat.lt_succ_self _) p

/-- **When the rounds are over, no pending call gets any further.** -/
theorem stuck_settle (h : d.Reachable nonNegative) : d.settle.2.Stuck :=
  h.settle.stuck_of_not_given h.not_given_settle

end Reachable

theorem settleFor_eq_afterAll (fuel : Nat) (d : Desk) :
    ∃ ns : List Nat, (settleFor fuel d).2 = d.afterAll (ns.map .poll) := by
  induction fuel generalizing d with
  | zero => exact ⟨[], rfl⟩
  | succ fuel ih =>
      simp only [settleFor]
      rw [pollEach_eq_afterAll]
      split
      · exact ⟨_, rfl⟩
      · obtain ⟨ns, hns⟩ := ih (d.afterAll ((d.pending.map Prod.fst).map .poll))
        refine ⟨d.pending.map Prod.fst ++ ns, hns.trans ?_⟩
        rw [List.map_append, afterAll_append]

/-- The rounds are a sequence of events. -/
theorem settle_eq_afterAll (d : Desk) :
    ∃ ns : List Nat, d.settle.2 = d.afterAll (ns.map .poll) := settleFor_eq_afterAll _ d

/-- Each reply is one that a call gives when it is asked. -/
theorem reply_of_settleFor {fuel : Nat} {x : Nat × Reply} (hx : x ∈ (settleFor fuel d).1) :
    ∃ ns : List Nat, ((d.afterAll (ns.map .poll)).poll x.1).1 = some x.2 := by
  induction fuel generalizing d with
  | zero => cases hx
  | succ fuel ih =>
      simp only [settleFor] at hx
      split at hx
      · cases hx
      · rcases List.mem_append.1 hx with hx | hx
        · exact reply_of_pollEach hx
        · obtain ⟨ns, hns⟩ := ih hx
          rw [pollEach_eq_afterAll] at hns
          refine ⟨d.pending.map Prod.fst ++ ns, ?_⟩
          rwa [List.map_append, afterAll_append]

/-- A pending call replies in one of the rounds or is pending after them. -/
theorem pending_settleFor (fuel : Nat) (hr : (n, r) ∈ d.pending) :
    (∃ reply, (n, reply) ∈ (settleFor fuel d).1) ∨
      ∃ r', (n, r') ∈ (settleFor fuel d).2.pending := by
  induction fuel generalizing d r with
  | zero => exact .inr ⟨r, hr⟩
  | succ fuel ih =>
      have hround := pending_pollEach (d.pending.map Prod.fst) hr
      simp only [settleFor]
      split
      · rename_i hempty
        rw [List.isEmpty_iff.1 hempty] at hround
        rcases hround with ⟨reply, hmem⟩ | hafter
        · cases hmem
        · exact .inr hafter
      · rcases hround with ⟨reply, hmem⟩ | ⟨r', hr'⟩
        · exact .inl ⟨reply, List.mem_append_left _ hmem⟩
        · rcases ih hr' with ⟨reply, hmem⟩ | hafter
          · exact .inl ⟨reply, List.mem_append_right _ hmem⟩
          · exact .inr hafter

end Desk

end DoubleEntry
