import DoubleEntry.Proofs.Attempt
set_option autoImplicit false

/-! # What is counted about transfers

A transfer is counted when it ends, and only then: `Metrics.record` is what its ending adds, and
metrics account for a list of endings (`Metrics.Accounts`) if they are what these have added one
after the other.

Of a system in which transfers are started and end it is enough to know what one event does
(`Monitor.Sound`): then every transfer of every run has ended once or is still under way, and the
metrics account for the endings (`Monitor.Sound.accounted`).
-/

namespace DoubleEntry

namespace Ending

/-- Whether a transfer was carried out. -/
def isCompleted : Ending → Bool
  | .answered (.completed _) => true
  | _ => false

/-- Whether a transfer ended with an error. -/
def isFailed : Ending → Bool
  | .answered (.failed _) => true
  | _ => false

/-- Whether a transfer ended with an error that has a label. -/
def isLabelled (label : String) : Ending → Bool
  | .answered (.failed e) => e.label = label
  | _ => false

/-- Whether a transfer ended with an error and the failure of the rollback after it. -/
def isComposite : Ending → Bool
  | .answered (.failed (.rollbackAfterFailure _ _)) => true
  | _ => false

/-- Whether the amount of a transfer had no opposite. -/
def isOverflowed : Ending → Bool
  | .answered .overflowed => true
  | _ => false

/-- Whether a transfer was cancelled. -/
def isCancelled : Ending → Bool
  | .cancelled => true
  | _ => false

/-- A composite has the label of composites, whatever its parts are, and nothing else has it. -/
theorem isLabelled_composite :
    isLabelled "rollback_after_failure" = isComposite := by
  funext e
  rcases e with ⟨receipt | error | _⟩ | _
  · rfl
  · cases error <;> rfl
  · rfl
  · rfl

end Ending

namespace Metrics

/-- Counts how a transfer ended. -/
def record (m : Metrics) : Ending → Metrics
  | .answered outcome => m.recordOutcome outcome
  | .cancelled => m.recordCancelled

/-- Counts how transfers ended, one after the other. -/
def recordAll (m : Metrics) (endings : List Ending) : Metrics := endings.foldl record m

/-! ## What an ending adds -/

section Record

variable (m : Metrics) (e : Ending)

theorem completed_record :
    (m.record e).completed = m.completed + if e.isCompleted = true then 1 else 0 := by
  rcases e with ⟨receipt | error | _⟩ | _ <;> rfl

theorem failed_record :
    (m.record e).failed = m.failed + if e.isFailed = true then 1 else 0 := by
  rcases e with ⟨receipt | error | _⟩ | _ <;> rfl

theorem count_errors_record (label : String) : (m.record e).errors.count label =
    m.errors.count label + if e.isLabelled label = true then 1 else 0 := by
  rcases e with ⟨receipt | error | _⟩ | _
  · rfl
  · simp [record, recordOutcome, Ending.isLabelled]
  · rfl
  · rfl

theorem total_errors_record :
    (m.record e).errors.total = m.errors.total + if e.isFailed = true then 1 else 0 := by
  rcases e with ⟨receipt | error | _⟩ | _
  · rfl
  · exact m.errors.total_bump error.label
  · rfl
  · rfl

theorem timed_record : (m.record e).timed = m.timed + 1 := by
  rcases e with ⟨receipt | error | _⟩ | _ <;> rfl

theorem queries_record : (m.record e).queries = m.queries := by
  rcases e with ⟨receipt | error | _⟩ | _ <;> rfl

end Record

/-- What one ending of a kind adds one to, all of them add their number to. -/
theorem meter_recordAll (meter : Metrics → Nat) {kind : Ending → Bool}
    (h : ∀ m e, meter (m.record e) = meter m + if kind e = true then 1 else 0) (m : Metrics)
    (endings : List Ending) : meter (m.recordAll endings) = meter m + endings.countP kind := by
  induction endings generalizing m with
  | nil => rfl
  | cons e endings ih =>
      have hrest : meter (m.recordAll (e :: endings)) = meter ((m.record e).recordAll endings) :=
        rfl
      rw [hrest, ih, h, List.countP_cons]
      omega

theorem queries_recordAll (m : Metrics) (endings : List Ending) :
    (m.recordAll endings).queries = m.queries := by
  induction endings generalizing m with
  | nil => rfl
  | cons e endings ih => exact (ih (m.record e)).trans (m.queries_record e)

/-- What is counted about transfers alone. -/
def ofTransfers (m : Metrics) : Metrics := { m with queries := {} }

theorem ofTransfers_recordAll (m : Metrics) (endings : List Ending) :
    (m.recordAll endings).ofTransfers = m.ofTransfers.recordAll endings := by
  induction endings generalizing m with
  | nil => rfl
  | cons e endings ih =>
      have hrecord : (m.record e).ofTransfers = m.ofTransfers.record e := by
        rcases e with ⟨receipt | error | _⟩ | _ <;> rfl
      have hrest := ih (m.record e)
      rw [hrecord] at hrest
      exact hrest

/-- **Metrics account for transfers** that ended in the given ways. -/
structure Accounts (m : Metrics) (endings : List Ending) : Prop where
  completed : m.completed = endings.countP Ending.isCompleted
  failed : m.failed = endings.countP Ending.isFailed
  /-- Each error is counted under its own label and under no other. -/
  errors : ∀ label, m.errors.count label = endings.countP (Ending.isLabelled label)
  composites : m.errors.count "rollback_after_failure" = endings.countP Ending.isComposite
  total : m.errors.total = m.failed
  timed : m.timed = m.completed + m.failed + endings.countP Ending.isOverflowed +
    endings.countP Ending.isCancelled

theorem accounts_nil : ({} : Metrics).Accounts [] where
  completed := rfl
  failed := rfl
  errors _ := rfl
  composites := rfl
  total := rfl
  timed := rfl

theorem Accounts.of_same {m m' : Metrics} {endings : List Ending} (h : m.Accounts endings)
    (same : m'.ofTransfers = m.ofTransfers) : m'.Accounts endings := by
  have hcompleted : m'.completed = m.completed := (congrArg Metrics.completed same :)
  have hfailed : m'.failed = m.failed := (congrArg Metrics.failed same :)
  have herrors : m'.errors = m.errors := (congrArg Metrics.errors same :)
  have htimed : m'.timed = m.timed := (congrArg Metrics.timed same :)
  constructor
  · rw [hcompleted, h.completed]
  · rw [hfailed, h.failed]
  · rw [herrors]
    exact h.errors
  · rw [herrors, h.composites]
  · rw [herrors, hfailed, h.total]
  · rw [htimed, hcompleted, hfailed, h.timed]

/-- Every ending is of one kind. -/
theorem length_endings (endings : List Ending) : endings.length =
    endings.countP Ending.isCompleted + endings.countP Ending.isFailed +
      endings.countP Ending.isOverflowed + endings.countP Ending.isCancelled := by
  induction endings with
  | nil => rfl
  | cons e endings ih =>
      rw [List.length_cons, ih]
      simp only [List.countP_cons]
      rcases e with ⟨receipt | error | _⟩ | _ <;>
        simp [Ending.isCompleted, Ending.isFailed, Ending.isOverflowed, Ending.isCancelled] <;>
        omega

/-- **Endings are accounted for as they come.** -/
theorem Accounts.recordAll {m : Metrics} {before : List Ending} (h : m.Accounts before)
    (endings : List Ending) : (m.recordAll endings).Accounts (before ++ endings) := by
  have herrors : ∀ label, (m.recordAll endings).errors.count label =
      (before ++ endings).countP (Ending.isLabelled label) := by
    intro label
    rw [meter_recordAll (fun m => m.errors.count label)
      (fun m e => m.count_errors_record e label), h.errors, List.countP_append]
  have hcompleted := meter_recordAll Metrics.completed completed_record m endings
  have hfailed := meter_recordAll Metrics.failed failed_record m endings
  have htotal := meter_recordAll (fun m => m.errors.total) total_errors_record m endings
  -- Every ending is timed, of whatever kind it is.
  have hany : ∀ (m : Metrics) (e : Ending),
      (m.record e).timed = m.timed + if (fun _ => true) e = true then 1 else 0 := timed_record
  have htimed := meter_recordAll Metrics.timed hany m endings
  rw [List.countP_true, length_endings] at htimed
  exact
    { completed := by rw [hcompleted, h.completed, List.countP_append]
      failed := by rw [hfailed, h.failed, List.countP_append]
      errors := herrors
      composites := by rw [herrors, Ending.isLabelled_composite]
      total := by rw [htotal, hfailed, h.total]
      timed := by
        have hbefore := h.timed
        simp only [List.countP_append]
        omega }

end Metrics

/-! ## Systems in which transfers end -/

/-- A number that is taken out of a list in which it stands once. -/
theorem perm_cons_filter_ne {l : List Nat} {n : Nat} (h : l.Nodup) (hn : n ∈ l) :
    (n :: l.filter fun m => m ≠ n).Perm l := by
  have herase : l.erase n = l.filter fun m => m ≠ n := by
    rw [h.erase_eq_filter]
    exact List.filter_congr fun m _ => by rw [Bool.eq_iff_iff, bne_iff_ne, decide_eq_true_eq]
  rw [← herase]
  exact (List.perm_cons_erase hn).symm

/-- **A system in which transfers are started and end** as things happen in it. -/
structure Monitor (σ ε : Type) where
  after : σ → ε → σ
  metrics : σ → Metrics
  /-- The transfers that were started and have not ended, by their numbers. -/
  underway : σ → List Nat
  /-- The number that a transfer gets which is started next. -/
  next : σ → Nat
  /-- The transfer that an event starts. -/
  startAt : σ → ε → Option Nat
  /-- The transfer that an event would carry further or cancel. -/
  about : ε → Option Nat
  /-- The transfer that ends at an event, and how it ends. -/
  endingAt : σ → ε → Option (Nat × Ending)

namespace Monitor

variable {σ ε : Type} (w : Monitor σ ε)

/-- The system after some events, one after the other. -/
def afterAll (s : σ) (es : List ε) : σ := es.foldl w.after s

/-- The transfers that end at events, in the order in which they end. -/
def endings (s : σ) : List ε → List (Nat × Ending)
  | [] => []
  | e :: es => (w.endingAt s e).toList ++ endings (w.after s e) es

/-- The transfers that events start, in the order in which they are started. -/
def starts (s : σ) : List ε → List Nat
  | [] => []
  | e :: es => (w.startAt s e).toList ++ starts (w.after s e) es

/-- **What is counted about the transfers** of a run. -/
structure Accounted (s : σ) (es : List ε) : Prop where
  metrics : (w.metrics (w.afterAll s es)).Accounts ((w.endings s es).map Prod.snd)
  /-- Each transfer that was started has ended once, or is under way and has not ended. -/
  once : ((w.endings s es).map Prod.fst ++ w.underway (w.afterAll s es)).Perm (w.starts s es)
  distinct : (w.starts s es).Nodup
  /-- What neither starts a transfer nor carries one further nor cancels it counts nothing. -/
  others : ∀ e, w.startAt (w.afterAll s es) e = none →
    (∀ n ∈ w.underway (w.afterAll s es), w.about e ≠ some n) →
    (w.metrics (w.after (w.afterAll s es) e)).ofTransfers =
      (w.metrics (w.afterAll s es)).ofTransfers

/-- **What one event does** in a system, as long as an invariant holds. -/
structure Sound (P : σ → Prop) : Prop where
  after : ∀ {s}, P s → ∀ e, P (w.after s e)
  /-- An ending is counted, and nothing else about transfers. -/
  counted : ∀ s e, (w.metrics (w.after s e)).ofTransfers =
    ((w.metrics s).recordAll ((w.endingAt s e).map Prod.snd).toList).ofTransfers
  /-- A transfer that was under way or is started has ended after the event or is under way. -/
  once : ∀ {s}, P s → ∀ e,
    (((w.endingAt s e).map Prod.fst).toList ++ w.underway (w.after s e)).Perm
      (w.underway s ++ (w.startAt s e).toList)
  concerns : ∀ {s}, P s → ∀ {e n ending}, w.endingAt s e = some (n, ending) →
    w.startAt s e = some n ∨ w.about e = some n
  next_le : ∀ s e, w.next s ≤ w.next (w.after s e)
  numbered : ∀ {s e n}, w.startAt s e = some n → n = w.next s ∧ w.next s < w.next (w.after s e)

namespace Sound

variable {w} {P : σ → Prop} {s : σ}

theorem afterAll (h : w.Sound P) (hs : P s) (es : List ε) : P (w.afterAll s es) := by
  induction es generalizing s with
  | nil => exact hs
  | cons e es ih => exact ih (h.after hs e)

/-- Endings are accounted for as they come. -/
theorem accounts (h : w.Sound P) {before : List Ending} (hs : (w.metrics s).Accounts before)
    (es : List ε) :
    (w.metrics (w.afterAll s es)).Accounts (before ++ (w.endings s es).map Prod.snd) := by
  -- What was counted before grows along the run, so that it is not fixed here.
  induction es generalizing s before with
  | nil =>
      rw [endings, List.map_nil, List.append_nil]
      exact hs
  | cons e es ih =>
      have hstep := (hs.recordAll ((w.endingAt s e).map Prod.snd).toList).of_same (h.counted s e)
      have hsnd : (w.endingAt s e).toList.map Prod.snd =
          ((w.endingAt s e).map Prod.snd).toList := by
        cases w.endingAt s e <;> rfl
      rw [endings, List.map_append, hsnd, ← List.append_assoc]
      exact ih hstep

/-- Transfers end once. -/
theorem once_afterAll (h : w.Sound P) (hs : P s) (es : List ε) :
    ((w.endings s es).map Prod.fst ++ w.underway (w.afterAll s es)).Perm
      (w.underway s ++ w.starts s es) := by
  induction es generalizing s with
  | nil => exact .of_eq (List.append_nil _).symm
  | cons e es ih =>
      have hfst : (w.endingAt s e).toList.map Prod.fst =
          ((w.endingAt s e).map Prod.fst).toList := by
        cases w.endingAt s e <;> rfl
      -- The two permutations meet at what is under way after the event.
      have hahead := (ih (h.after hs e)).append_left ((w.endingAt s e).map Prod.fst).toList
      have hbehind := (h.once hs e).append_right (w.starts (w.after s e) es)
      rw [List.append_assoc, List.append_assoc] at hbehind
      rw [endings, starts, List.map_append, hfst, List.append_assoc]
      exact hahead.trans hbehind

/-- Transfers are numbered in the order in which they are started. -/
theorem starts_ordered (h : w.Sound P) (s : σ) (es : List ε) :
    (∀ n ∈ w.starts s es, w.next s ≤ n) ∧ (w.starts s es).Pairwise (· < ·) := by
  induction es generalizing s with
  | nil => exact ⟨nofun, .nil⟩
  | cons e es ih =>
      obtain ⟨hge, hordered⟩ := ih (w.after s e)
      have hle := h.next_le s e
      unfold starts
      cases hstart : w.startAt s e with
      | none => exact ⟨fun n hn => hle.trans (hge n hn), hordered⟩
      | some n =>
          obtain ⟨rfl, hlt⟩ := h.numbered hstart
          refine ⟨List.forall_mem_cons.2 ⟨le_rfl, fun n hn => hle.trans (hge n hn)⟩,
            List.pairwise_cons.2 ⟨fun n hn => hlt.trans_le (hge n hn), hordered⟩⟩

/-- At an event that neither starts a transfer nor concerns one under way no transfer ends. -/
theorem endingAt_eq_none (h : w.Sound P) (hs : P s) {e : ε} (hstart : w.startAt s e = none)
    (hother : ∀ n ∈ w.underway s, w.about e ≠ some n) : w.endingAt s e = none := by
  cases hending : w.endingAt s e with
  | none => rfl
  | some x =>
      obtain ⟨n, ending⟩ := x
      have hperm := h.once hs e
      rw [hending, hstart] at hperm
      have hn : n ∈ w.underway s := by simpa using hperm.subset (List.mem_cons_self ..)
      rcases h.concerns hs hending with hstarted | habout
      · rw [hstart] at hstarted
        exact nomatch hstarted
      · exact absurd habout (hother n hn)

/-- **Every transfer is counted once,** when it ends, if that is what every event does. -/
theorem accounted (h : w.Sound P) (hs : P s) (hmetrics : (w.metrics s).ofTransfers = {})
    (hunderway : w.underway s = []) (es : List ε) : w.Accounted s es where
  metrics := by
    have hstart : (w.metrics s).Accounts [] := Metrics.accounts_nil.of_same hmetrics
    exact h.accounts hstart es
  once := by
    have honce := h.once_afterAll hs es
    rwa [hunderway, List.nil_append] at honce
  distinct := (h.starts_ordered s es).2.imp ne_of_lt
  others := by
    intro e hstart hother
    rw [h.counted, h.endingAt_eq_none (h.afterAll hs es) hstart hother]
    rfl

end Sound

end Monitor

end DoubleEntry
