import DoubleEntry.Proofs.Attempt
import DoubleEntry.Proofs.Rounds
set_option autoImplicit false

/-! # Turns

A turn is an event with all that follows from it: the pending calls are asked until none of them
gets any further (`Desk.turn`). So between two turns nobody has been given a lock without having
found out (`Desk.Over.turns`), and to ask once more ends no call.
-/

namespace DoubleEntry

/-- What is answered in a turn. -/
structure Turn where
  /-- The answer to the event itself, if it gets one. -/
  response : Option Response
  /-- The pending calls that ended after it, in the order in which they did. -/
  ended : List (Nat × Reply)
  deriving DecidableEq, Repr

namespace Desk

variable {nonNegative : Bool} {spent : Spent} {d : Desk} {n : Nat} {r : Request}

/-- The answer to an event, if it gets one. -/
def response? (d : Desk) : Event → Option Response
  | .command c => some (d.submit c).1
  | .poll n => (d.poll n).1.map .reply
  | .cancel n => some (d.cancel n).1
  | .skip | .tick _ => none

/-- **An event, and all that follows from it.** -/
def turn (d : Desk) (e : Event) : Turn × Desk :=
  (⟨d.response? e, (d.after e).settle.1⟩, (d.after e).settle.2)

/-- Some turns, one after the other. -/
def turns (d : Desk) : List Event → List Turn × Desk
  | [] => ([], d)
  | e :: es => ((d.turn e).1 :: ((d.turn e).2.turns es).1, ((d.turn e).2.turns es).2)

theorem turns_append (d : Desk) (es es' : List Event) : d.turns (es ++ es') =
    ((d.turns es).1 ++ ((d.turns es).2.turns es').1, ((d.turns es).2.turns es').2) := by
  induction es generalizing d with
  | nil => rfl
  | cons e es ih =>
      rw [List.cons_append, turns, ih]
      rfl

/-! ## Turns as events -/

/-- The events of a turn. -/
theorem turn_eq_afterAll (d : Desk) (e : Event) :
    ∃ ns : List Nat, (d.turn e).2 = d.afterAll (e :: ns.map .poll) := by
  obtain ⟨ns, hns⟩ := (d.after e).settle_eq_afterAll
  exact ⟨ns, hns⟩

/-- Turns are sequences of events, in which pending calls are asked in between. -/
theorem turns_eq_afterAll (d : Desk) (es : List Event) : ∃ es', (d.turns es).2 = d.afterAll es' ∧
    ∀ e ∈ es', e ∈ es ∨ ∃ n, e = .poll n := by
  induction es generalizing d with
  | nil => exact ⟨[], rfl, fun e he => nomatch he⟩
  | cons e es ih =>
      obtain ⟨ns, hns⟩ := d.turn_eq_afterAll e
      obtain ⟨es', hes, hmem⟩ := ih (d.turn e).2
      refine ⟨(e :: ns.map .poll) ++ es', ?_, fun e' he => ?_⟩
      · rw [afterAll_append, ← hns, ← hes]
        rfl
      · rcases List.mem_append.1 he with he | he
        · rcases List.mem_cons.1 he with rfl | he
          · exact .inl (List.mem_cons_self ..)
          · obtain ⟨n, -, rfl⟩ := List.mem_map.1 he
            exact .inr ⟨n, rfl⟩
        · exact (hmem e' he).imp_left (List.mem_cons_of_mem _)

theorem next_polls (d : Desk) (ns : List Nat) : (d.afterAll (ns.map .poll)).next = d.next := by
  induction ns generalizing d with
  | nil => rfl
  | cons n ns ih => exact (ih _).trans (d.next_after (.poll n))

/-- A turn uses up the numbers that its event does. -/
theorem next_turn (d : Desk) (e : Event) : (d.turn e).2.next = d.next + e.width := by
  obtain ⟨ns, hns⟩ := d.turn_eq_afterAll e
  rw [hns, show d.afterAll (e :: ns.map .poll) = (d.after e).afterAll (ns.map .poll) from rfl,
    next_polls, next_after]

theorem next_le_turns (d : Desk) (es : List Event) : d.next ≤ (d.turns es).2.next := by
  induction es generalizing d with
  | nil => exact le_rfl
  | cons e es ih => exact ((d.next_turn e).ge.trans' (Nat.le_add_right _ _)).trans (ih _)

/-- What was pending under an old number later was pending before. -/
theorem pending_of_afterAll (hn : n < d.next) (es : List Event)
    (hr : (n, r) ∈ (d.afterAll es).pending) : ∃ s, (n, s) ∈ d.pending :=
  pending_of_old (Q := fun _ => ∃ s, (n, s) ∈ d.pending) (fun _ _ h => h) hn
    (fun hs => ⟨_, hs⟩) es hr

/-! ## Between turns -/

/-- To ask calls that get no further ends none of them. -/
theorem Stuck.pollEach (h : d.Stuck) {ns : List Nat} (hns : ∀ n ∈ ns, n ∈ d.pending.map Prod.fst) :
    d.pollEach ns = ([], d) := by
  induction ns with
  | nil => rfl
  | cons n ns ih =>
      obtain ⟨x, hx, rfl⟩ := List.mem_map.1 (hns n (List.mem_cons_self ..))
      rw [pollEach_cons, h x hx, ih fun m hm => hns m (List.mem_cons_of_mem _ hm)]
      rfl

theorem Stuck.settle (h : d.Stuck) : d.settle = ([], d) := by
  unfold Desk.settle
  simp only [settleFor]
  rw [h.pollEach fun n hn => hn]
  rfl

namespace Reachable

theorem turn (h : d.Reachable nonNegative) (e : Event) : (d.turn e).2.Reachable nonNegative :=
  (h.after e).settle

end Reachable

/-- **A desk between turns.** -/
structure Over (nonNegative : Bool) (d : Desk) : Prop where
  reachable : d.Reachable nonNegative
  unserved : ∀ p, ¬ d.Given p

theorem over_opening (nonNegative : Bool) : (opening nonNegative).Over nonNegative :=
  ⟨.opening, fun _ ⟨_, ha, _⟩ => nomatch ha⟩

namespace Over

theorem turn (h : d.Over nonNegative) (e : Event) : (d.turn e).2.Over nonNegative :=
  ⟨(h.reachable.after e).settle, (h.reachable.after e).not_given_settle⟩

/-- **Between turns nobody has been given a lock** without having found out. -/
theorem turns (h : d.Over nonNegative) (es : List Event) : (d.turns es).2.Over nonNegative := by
  induction es generalizing d with
  | nil => exact h
  | cons e es ih => exact ih (h.turn e)

theorem of_turn {d' : Desk} {e : Event} {x : Turn} (h : d.Over nonNegative)
    (hturn : d.turn e = (x, d')) : d'.Over nonNegative ∧ d'.next = d.next + e.width := by
  have hover := h.turn e
  have hnext := d.next_turn e
  rw [hturn] at hover hnext
  exact ⟨hover, hnext⟩

theorem of_turns {d' : Desk} {es : List Event} {xs : List Turn} (h : d.Over nonNegative)
    (hturns : d.turns es = (xs, d')) : d'.Over nonNegative ∧ d.next ≤ d'.next := by
  have hover := h.turns es
  have hnext := d.next_le_turns es
  rw [hturns] at hover hnext
  exact ⟨hover, hnext⟩

theorem settle (h : d.Over nonNegative) : d.settle = ([], d) :=
  (h.reachable.stuck_of_not_given h.unserved).settle

end Over

end Desk

end DoubleEntry
