import DoubleEntry.Proofs.Counting
import DoubleEntry.Proofs.Rounds
set_option autoImplicit false

/-! # What a desk counts

How transfers end at a desk is read off what it answers (`Desk.endingAt`): a command or a poll is
answered with an outcome, or a pending transfer is cancelled. Nothing but that is counted
(`Desk.metrics_after`), and a transfer that was started has ended at last or is pending
(`Desk.Sound.underway_after`).
-/

namespace DoubleEntry

/-- The calls that a transfer had made that was cancelled. -/
def Response.made? : Response → Option (List Call)
  | .cancelled made => made
  | _ => none

/-- Whether a pending call is a transfer. -/
def Request.isTransfer : Request → Bool
  | .transfer _ => true
  | _ => false

/-- The pending call that an event asks to go on or cancels. -/
def Event.about? : Event → Option Nat
  | .poll number | .cancel number => some number
  | .command _ | .skip | .tick _ => none

@[simp] theorem Reply.outcome?_of {α : Type} (value : α → Value) (a : Except LedgerError α) :
    (Reply.of value a).outcome? = none := by
  cases a <;> rfl

namespace Desk

variable {spent : Spent} {d : Desk} {n : Nat} {r : Request}

/-- The transfer that ends at an event, by its number, and how it ends: it answers, or it is
cancelled before. -/
def endingAt (d : Desk) : Event → Option (Nat × Ending)
  | .command c =>
      ((d.submit c).1.reply?.bind Reply.outcome?).map fun outcome => (d.next, .answered outcome)
  | .poll number =>
      ((d.poll number).1.bind Reply.outcome?).map fun outcome => (number, .answered outcome)
  | .cancel number => (d.cancel number).1.made?.map fun _ => (number, .cancelled)
  | .skip | .tick _ => none

/-- The transfer that an event starts, by its number. -/
def startAt (d : Desk) : Event → Option Nat
  | .command (.transfer _ _) => some d.next
  | _ => none

/-- The transfers that are pending, by their numbers. -/
def underway (d : Desk) : List Nat :=
  d.pending.filterMap fun p => if p.2.isTransfer = true then some p.1 else none

/-! ## Nothing else is counted -/

theorem metrics_attempt (d : Desk) (n : Nat) (r : Request) : (d.attempt n r).2.metrics =
    d.metrics.recordAll (((d.attempt n r).1.bind Reply.outcome?).map Ending.answered).toList := by
  rw [attempt_eq]
  rcases r.proceed n d.bank with ⟨_ | reply, r', bank⟩
  · dsimp only
    rw [park_eq]
    rfl
  · cases reply <;> rfl

theorem metrics_call (d : Desk) (r : Request) : (d.call r).2.metrics =
    d.metrics.recordAll (((d.call r).1.reply?.bind Reply.outcome?).map Ending.answered).toList := by
  rw [reply?_call, call_desk]
  exact d.metrics_attempt d.next r

theorem outcome?_atOnce {α : Type} (d : Desk) (value : α → Value)
    (r : Except LedgerError α × Bank) : (d.atOnce value r).1.reply?.bind Reply.outcome? = none :=
  Reply.outcome?_of value r.1

theorem metrics_atOnce {α : Type} (d : Desk) (value : α → Value) (r : Except LedgerError α × Bank) :
    (d.atOnce value r).2.metrics = d.metrics.recordAll
      (((d.atOnce value r).1.reply?.bind Reply.outcome?).map Ending.answered).toList := by
  rw [outcome?_atOnce]
  rfl

theorem metrics_submit (d : Desk) (c : Command) : (d.submit c).2.metrics = d.metrics.recordAll
    (((d.submit c).1.reply?.bind Reply.outcome?).map Ending.answered).toList := by
  cases c with
  | query q => rfl
  | createAccount n => exact d.metrics_atOnce _ _
  | begin unit =>
      rcases d.submit_begin_cases unit with ⟨-, heq⟩ | ⟨-, heq⟩
      · rw [heq]
        rfl
      · rw [heq]
        exact d.metrics_atOnce _ _
  | onUnit unit action =>
      rcases d.submit_onUnit_cases unit action with ⟨refusal, heq⟩ | ⟨-, -, heq⟩
      · rw [heq]
        rfl
      · rw [heq]
        cases action with
        | addBalance account delta => exact d.metrics_call _
        | _ => exact d.metrics_atOnce _ _
  | _ => exact d.metrics_call _

/-- A call that is given up is counted if it is a transfer. -/
theorem metrics_giveUp (d : Desk) (n : Nat) (r : Request) : (d.giveUp n r).metrics =
    d.metrics.recordAll (if r.isTransfer = true then [.cancelled] else []) := by
  cases r <;> rfl

theorem endingAt_cancel_none (h : d.pending.lookup n = none) : d.endingAt (.cancel n) = none := by
  unfold endingAt cancel
  dsimp only
  rw [h]
  rfl

theorem endingAt_cancel (h : d.pending.lookup n = some r) : d.endingAt (.cancel n) =
    if r.isTransfer = true then some (n, .cancelled) else none := by
  unfold endingAt cancel
  dsimp only
  rw [h]
  cases r <;> rfl

/-- **An event counts how a transfer ends at it, and nothing else.** -/
theorem metrics_after (d : Desk) (e : Event) :
    (d.after e).metrics = d.metrics.recordAll ((d.endingAt e).map Prod.snd).toList := by
  cases e with
  | command c =>
      have hsubmit := d.metrics_submit c
      simpa [endingAt, after, Option.map_map, Function.comp_def] using hsubmit
  | poll number =>
      show (d.poll number).2.metrics = _
      rcases d.poll_cases number with ⟨-, heq⟩ | ⟨r, -, -, heq⟩
      · simp [endingAt, heq, Metrics.recordAll]
      · have hattempt := d.metrics_attempt number r
        simpa [endingAt, heq, Option.map_map, Function.comp_def] using hattempt
  | cancel number =>
      show (d.cancel number).2.metrics = _
      rcases d.cancel_cases number with ⟨hl, heq⟩ | ⟨r, -, hl, heq⟩
      · rw [heq, endingAt_cancel_none hl]
        rfl
      · rw [heq, endingAt_cancel hl]
        show (d.giveUp number r).metrics = _
        rw [metrics_giveUp]
        cases r.isTransfer <;> rfl
  | skip => rfl
  | tick now => rfl

/-! ## Every transfer ends once -/

theorem mem_underway : n ∈ d.underway ↔ ∃ r, (n, r) ∈ d.pending ∧ r.isTransfer = true := by
  unfold underway
  rw [List.mem_filterMap]
  constructor
  · rintro ⟨⟨m, r⟩, hr, hm⟩
    by_cases ht : r.isTransfer = true
    · rw [if_pos ht] at hm
      obtain rfl := Option.some.inj hm
      exact ⟨r, hr, ht⟩
    · rw [if_neg ht] at hm
      exact nomatch hm
  · rintro ⟨r, hr, ht⟩
    exact ⟨(n, r), hr, if_pos ht⟩

theorem nodup_underway (h : (d.pending.map Prod.fst).Nodup) : d.underway.Nodup := by
  -- A number is listed only for a transfer, and then it is the one that the call has.
  refine List.pairwise_filterMap.2 ((List.pairwise_map.1 h).imp fun {p q} hne m hm m' hm' => ?_)
  by_cases hp : p.2.isTransfer = true <;> by_cases hq : q.2.isTransfer = true
  · rw [if_pos hp] at hm
    rw [if_pos hq] at hm'
    rwa [← Option.some.inj hm, ← Option.some.inj hm']
  · rw [if_neg hq] at hm'
    exact nomatch hm'
  · rw [if_neg hp] at hm
    exact nomatch hm
  · rw [if_neg hp] at hm
    exact nomatch hm

theorem underway_dismiss (d : Desk) (n : Nat) :
    (d.dismiss n).underway = d.underway.filter fun m => m ≠ n := by
  unfold underway dismiss
  dsimp only
  rw [List.filterMap_filter, List.filter_filterMap]
  refine List.filterMap_congr fun p _ => ?_
  by_cases ht : p.2.isTransfer = true <;> by_cases hp : p.1 = n <;> simp [ht, hp, Option.filter]

/-- A call that was noted as waiting is forgotten with its number. -/
theorem underway_dismiss_park (d : Desk) (n : Nat) (r : Request) :
    (d.dismiss n).underway = (d.park n r).underway.filter fun m => m ≠ n := by
  rw [underway_dismiss]
  unfold underway park
  split
  · dsimp only
    rw [List.filterMap_map, List.filter_filterMap, List.filter_filterMap]
    refine List.filterMap_congr fun p _ => ?_
    by_cases ht : p.2.isTransfer = true <;> by_cases hr : r.isTransfer = true <;>
      by_cases hp : p.1 = n <;> simp [ht, hr, hp, Option.filter]
  · by_cases hr : r.isTransfer = true <;> simp [List.filterMap_append, hr]

/-- What waits under a number makes no difference to the others. -/
theorem underway_park_congr {r' : Request} (h : r.isTransfer = r'.isTransfer) :
    (d.park n r).underway = (d.park n r').underway := by
  unfold underway park
  split
  · dsimp only
    rw [List.filterMap_map, List.filterMap_map]
    refine List.filterMap_congr fun p _ => ?_
    by_cases hp : p.1 = n <;> simp [hp, h]
  · simp [List.filterMap_append, List.filterMap_cons, h]

theorem underway_park_new (h : d.pending.lookup n = none) : (d.park n r).underway =
    d.underway ++ if r.isTransfer = true then [n] else [] := by
  unfold underway park
  rw [h]
  by_cases ht : r.isTransfer = true <;> simp [List.filterMap_append, ht]

theorem isTransfer_proceed (n : Nat) (r : Request) (b : Bank) :
    (r.proceed n b).2.1.isTransfer = r.isTransfer ∧
      ∀ reply, (r.proceed n b).1 = some reply → reply.outcome?.isSome = r.isTransfer := by
  -- Only a transfer replies with an outcome.
  have hother : ∀ {α : Type} (value : α → Value) (answer : Option (Except LedgerError α)),
      ∀ reply, answer.map (Reply.of value) = some reply → reply.outcome?.isSome = false := by
    intro α value answer reply hreply
    obtain ⟨a, -, rfl⟩ := Option.map_eq_some_iff.1 hreply
    rw [Reply.outcome?_of]
    rfl
  cases r with
  | transfer run =>
      unfold Request.proceed
      dsimp only
      generalize (Bank.store (.call n)).run run b = x
      obtain ⟨run' | ⟨outcome, made⟩, b'⟩ := x
      · exact ⟨rfl, fun reply hreply => nomatch hreply⟩
      · refine ⟨rfl, fun reply hreply => ?_⟩
        obtain rfl := Option.some.inj hreply
        rfl
  | addBalance unit account delta => exact ⟨rfl, hother _ _⟩
  | updateAccount account balance => exact ⟨rfl, hother _ _⟩
  | deleteAccount account => exact ⟨rfl, hother _ _⟩

/-- A call that waits no more. -/
theorem underway_forget (d : Desk) (n : Nat) (r : Request) (h : (d.pending.map Prod.fst).Nodup) :
    ((if r.isTransfer = true then [n] else []) ++ (d.dismiss n).underway).Perm
      (d.park n r).underway := by
  rw [d.underway_dismiss_park n r]
  by_cases ht : r.isTransfer = true
  · have hmem : n ∈ (d.park n r).underway := mem_underway.2 ⟨r, mem_park.2 (.inl ⟨rfl, rfl⟩), ht⟩
    have hnodup : (d.park n r).underway.Nodup := nodup_underway (numbers_park h)
    rw [if_pos ht]
    exact perm_cons_filter_ne hnodup hmem
  · -- The number stands for a call that is no transfer, so that it is not listed.
    have hnot : n ∉ (d.park n r).underway := by
      intro hmem
      obtain ⟨s, hs, hst⟩ := mem_underway.1 hmem
      rcases mem_park.1 hs with ⟨-, rfl⟩ | ⟨hne, -⟩
      · exact ht hst
      · exact hne rfl
    rw [if_neg ht, List.filter_eq_self.2 fun m hm => by simpa using ne_of_mem_of_not_mem hm hnot]
    exact .refl _

/-- A call that is asked to go on either waits or has ended. -/
theorem underway_attempt (d : Desk) (n : Nat) (r : Request) (h : (d.pending.map Prod.fst).Nodup) :
    (((d.attempt n r).1.bind Reply.outcome?).toList.map (fun _ => n) ++
      (d.attempt n r).2.underway).Perm (d.park n r).underway := by
  obtain ⟨hkind, hreply⟩ := isTransfer_proceed n r d.bank
  rw [attempt_eq]
  generalize r.proceed n d.bank = x at hkind hreply
  obtain ⟨_ | reply, r', bank⟩ := x
  · have hpark : ({ d with bank }.park n r').underway = (d.park n r').underway := by
      rw [park_eq]
      rfl
    show ([] ++ ({ d with bank }.park n r').underway).Perm _
    rw [hpark, underway_park_congr hkind]
    exact .refl _
  · have hforget := d.underway_forget n r h
    rw [← hreply reply rfl] at hforget
    show (reply.outcome?.toList.map (fun _ => n) ++ (d.dismiss n).underway).Perm _
    cases houtcome : reply.outcome? with
    | some outcome =>
        rw [houtcome] at hforget
        exact hforget
    | none =>
        rw [houtcome] at hforget
        exact hforget

/-- A call that is taken. -/
theorem underway_call (h : d.Sound spent) (r : Request) :
    (((d.call r).1.reply?.bind Reply.outcome?).toList.map (fun _ => d.next) ++
      (d.call r).2.underway).Perm
        (d.underway ++ if r.isTransfer = true then [d.next] else []) := by
  have hnew : d.pending.lookup d.next = none := by
    cases hl : d.pending.lookup d.next with
    | none => rfl
    | some s => exact absurd (h.below ((lookup_eq_some_iff h.distinct).1 hl)) (Nat.lt_irrefl _)
  have hattempt := d.underway_attempt d.next r h.distinct.numbers
  rw [underway_park_new hnew, ← reply?_call] at hattempt
  rw [call_desk]
  exact hattempt

/-- A command that is not a call starts no transfer and ends none. -/
theorem submit_call_or (d : Desk) (c : Command) :
    (∃ r, d.submit c = d.call r ∧
      (d.startAt (.command c)).toList = if r.isTransfer = true then [d.next] else []) ∨
    (d.startAt (.command c) = none ∧ (d.submit c).1.reply?.bind Reply.outcome? = none ∧
      (d.submit c).2.underway = d.underway) := by
  cases c with
  | query q => exact .inr ⟨rfl, rfl, rfl⟩
  | createAccount n => exact .inr ⟨rfl, d.outcome?_atOnce _ _, rfl⟩
  | begin unit =>
      rcases d.submit_begin_cases unit with ⟨-, heq⟩ | ⟨-, heq⟩
      · exact .inr ⟨rfl, by rw [heq]; rfl, by rw [heq]; rfl⟩
      · exact .inr ⟨rfl, by rw [heq]; rfl, by rw [heq]; rfl⟩
  | onUnit unit action =>
      rcases d.submit_onUnit_cases unit action with ⟨refusal, heq⟩ | ⟨-, -, heq⟩
      · exact .inr ⟨rfl, by rw [heq]; rfl, by rw [heq]; rfl⟩
      · rw [heq]
        cases action with
        | addBalance account delta => exact .inl ⟨_, rfl, rfl⟩
        | _ => exact .inr ⟨rfl, d.outcome?_atOnce _ _, rfl⟩
  | _ => exact .inl ⟨_, rfl, rfl⟩

/-- **A transfer that is pending or is started** has ended after an event or is pending still. -/
theorem Sound.underway_after (h : d.Sound spent) (e : Event) :
    (((d.endingAt e).map Prod.fst).toList ++ (d.after e).underway).Perm
      (d.underway ++ (d.startAt e).toList) := by
  cases e with
  | command c =>
      have hended : ((d.endingAt (.command c)).map Prod.fst).toList =
          ((d.submit c).1.reply?.bind Reply.outcome?).toList.map fun _ => d.next := by
        unfold endingAt
        dsimp only
        cases (d.submit c).1.reply?.bind Reply.outcome? <;> rfl
      rw [hended]
      show (_ ++ (d.submit c).2.underway).Perm _
      rcases d.submit_call_or c with ⟨r, heq, hstart⟩ | ⟨hstart, hnone, hsame⟩
      · rw [heq, hstart]
        exact underway_call h r
      · rw [hstart, hnone, hsame]
        simp
  | poll number =>
      have hended : ((d.endingAt (.poll number)).map Prod.fst).toList =
          ((d.poll number).1.bind Reply.outcome?).toList.map fun _ => number := by
        unfold endingAt
        dsimp only
        cases (d.poll number).1.bind Reply.outcome? <;> rfl
      rw [hended]
      show (_ ++ (d.poll number).2.underway).Perm (d.underway ++ [])
      rw [List.append_nil]
      rcases d.poll_cases number with ⟨-, heq⟩ | ⟨r, hr, -, heq⟩
      · rw [heq]
        exact .refl _
      · -- A call that waits already is noted as it is.
        have hattempt := d.underway_attempt number r h.distinct.numbers
        rw [park_self hr h.distinct] at hattempt
        rw [heq]
        exact hattempt
  | cancel number =>
      show (_ ++ (d.cancel number).2.underway).Perm (d.underway ++ [])
      rw [List.append_nil]
      rcases d.cancel_cases number with ⟨hl, heq⟩ | ⟨r, hr, hl, heq⟩
      · rw [heq, endingAt_cancel_none hl]
        exact .refl _
      · have hforget := d.underway_forget number r h.distinct.numbers
        rw [park_self hr h.distinct] at hforget
        have hsame : (d.giveUp number r).count.underway = (d.dismiss number).underway := by
          show List.filterMap _ (d.giveUp number r).pending = _
          rw [giveUp_pending]
          rfl
        rw [heq, endingAt_cancel hl, hsame]
        cases ht : r.isTransfer with
        | true =>
            rw [ht] at hforget
            exact hforget
        | false =>
            rw [ht] at hforget
            exact hforget
  | skip =>
      show ([] ++ d.underway).Perm (d.underway ++ [])
      rw [List.append_nil]
      exact .refl _
  | tick now =>
      show ([] ++ d.underway).Perm (d.underway ++ [])
      rw [List.append_nil]
      exact .refl _

/-! ## The main result -/

theorem startAt_eq_some {e : Event} (h : d.startAt e = some n) :
    n = d.next ∧ d.next < (d.after e).next := by
  unfold startAt at h
  split at h
  · rename_i t faults
    have hnext : (d.after (.command (.transfer t faults))).next = d.next + 1 := d.next_after _
    exact ⟨(Option.some.inj h).symm, (Nat.lt_succ_self _).trans_le hnext.ge⟩
  · exact nomatch h

/-- A transfer ends when it is started or at an event that is about it. -/
theorem Sound.concerns (h : d.Sound spent) {e : Event} {ending : Ending}
    (hending : d.endingAt e = some (n, ending)) : d.startAt e = some n ∨ e.about? = some n := by
  cases e with
  | command c =>
      have hperm := h.underway_after (.command c)
      obtain ⟨outcome, -, heq⟩ := Option.map_eq_some_iff.1 hending
      obtain rfl := (Prod.mk.inj heq).1
      rw [hending] at hperm
      -- The number of a command is new, so that no pending transfer has it.
      rcases List.mem_append.1 (hperm.subset (List.mem_cons_self ..)) with hold | hnew
      · obtain ⟨r, hr, -⟩ := mem_underway.1 hold
        exact absurd (h.below hr) (Nat.lt_irrefl _)
      · exact .inl (Option.mem_toList.1 hnew)
  | poll m =>
      obtain ⟨outcome, -, heq⟩ := Option.map_eq_some_iff.1 hending
      obtain rfl := (Prod.mk.inj heq).1
      exact .inr rfl
  | cancel m =>
      obtain ⟨made, -, heq⟩ := Option.map_eq_some_iff.1 hending
      obtain rfl := (Prod.mk.inj heq).1
      exact .inr rfl
  | skip => exact nomatch hending
  | tick now => exact nomatch hending

/-- A desk, as far as its transfers are counted. -/
def monitor : Monitor Desk Event where
  after := after
  metrics := metrics
  underway := underway
  next := next
  startAt := startAt
  about := Event.about?
  endingAt := endingAt

theorem monitor_sound (nonNegative : Bool) : monitor.Sound (Reachable nonNegative) where
  after h e := h.after e
  counted d e := congrArg Metrics.ofTransfers (d.metrics_after e)
  once h e := h.sound.underway_after e
  concerns h := h.sound.concerns
  next_le := next_le_after
  numbered := startAt_eq_some

/-- **Every transfer at a desk is counted once,** when it ends. -/
theorem accounted_run (nonNegative : Bool) (es : List Event) :
    monitor.Accounted (opening nonNegative) es :=
  (monitor_sound nonNegative).accounted .opening rfl rfl es

/-- Three transfers are started, one after the other: one waits for a row until it is cancelled, one
names an account that is not there, and one has an amount without an opposite. -/
example :
    let es : List Event := [.command (.createAccount ⟨"a", 100, .usd⟩),
      .command (.createAccount ⟨"b", 50, .usd⟩), .command (.begin "u"),
      .command (.onUnit "u" (.addBalance 2 7)), .command (.transfer ⟨1, 2, 30⟩ []),
      .command (.transfer ⟨1, 3, 30⟩ []), .command (.transfer ⟨1, 2, Amount.least⟩ []), .cancel 4]
    let m := ((opening true).afterAll es).metrics
    (monitor.endings (opening true) es).map Prod.fst = [5, 6, 4] ∧
      (m.completed, m.failed, m.timed) = (0, 1, 3) := by
  decide +kernel

end Desk

end DoubleEntry
