import DoubleEntry.Transfer.Protocol
set_option autoImplicit false

/-! # Metrics

What is counted about the work of a ledger: how transfers ended, which kinds of errors they ended
with, how many of them were timed, and how often each statement was sent to a database. Every
transfer that ends is timed once, also when it is cancelled or given up.
-/

namespace DoubleEntry

/-- How often each of some labels was counted; the labels stand in increasing order. -/
structure Tally where
  counts : List (String × Nat) := []
  deriving DecidableEq, Repr, Inhabited

namespace Tally

/-- Counts a label once more in a list of counts. -/
def bumpIn (label : String) : List (String × Nat) → List (String × Nat)
  | [] => [(label, 1)]
  | (l, n) :: rest =>
      if label < l then (label, 1) :: (l, n) :: rest
      else if label = l then (l, n + 1) :: rest
      else (l, n) :: bumpIn label rest

/-- Counts a label once more. -/
def bump (t : Tally) (label : String) : Tally := ⟨bumpIn label t.counts⟩

/-- How often a label was counted. -/
def count (t : Tally) (label : String) : Nat :=
  (t.counts.filter fun c => c.1 = label).foldr (fun c n => c.2 + n) 0

/-- How often any label was counted. -/
def total (t : Tally) : Nat := t.counts.foldr (fun c n => c.2 + n) 0

@[simp] theorem count_bump (t : Tally) (label other : String) :
    (t.bump label).count other = t.count other + if label = other then 1 else 0 := by
  obtain ⟨l⟩ := t
  simp only [count, bump]
  induction l with
  | nil => by_cases h : label = other <;> simp [bumpIn, h]
  | cons c rest ih =>
      obtain ⟨l, n⟩ := c
      simp only [bumpIn]
      split
      · by_cases h : label = other <;> simp [h]; omega
      · split
        · rename_i heq
          subst heq
          by_cases h : label = other <;> simp [h]
          omega
        · by_cases h : l = other <;> simp [h, ih]
          omega

@[simp] theorem total_bump (t : Tally) (label : String) : (t.bump label).total = t.total + 1 := by
  obtain ⟨l⟩ := t
  simp only [total, bump]
  induction l with
  | nil => rfl
  | cons c rest ih =>
      obtain ⟨l, n⟩ := c
      simp only [bumpIn]
      split
      · simp; omega
      · split
        · simp; omega
        · simp [ih]; omega

end Tally

/-- What was counted about a ledger. -/
structure Metrics where
  /-- Transfers that were completed. -/
  completed : Nat := 0
  /-- Transfers that ended with an error. -/
  failed : Nat := 0
  /-- Errors that transfers ended with, by their labels. -/
  errors : Tally := {}
  /-- Transfers that ended in any way. -/
  timed : Nat := 0
  /-- Statements sent to a database, by their names. -/
  queries : Tally := {}
  deriving DecidableEq, Repr, Inhabited

namespace Metrics

/-- Counts a transfer that ended. -/
def recordOutcome (m : Metrics) : Outcome → Metrics
  | .completed _ => { m with timed := m.timed + 1, completed := m.completed + 1 }
  | .failed e =>
      { m with timed := m.timed + 1, failed := m.failed + 1, errors := m.errors.bump e.label }
  | .overflowed => { m with timed := m.timed + 1 }

/-- Counts a transfer that was cancelled. -/
def recordCancelled (m : Metrics) : Metrics := { m with timed := m.timed + 1 }

/-- Counts a statement sent to a database. -/
def recordQuery (m : Metrics) (name : String) : Metrics := { m with queries := m.queries.bump name }

/-! ## Text form -/

/-- The head of a family of metrics. -/
def head (name help kind : String) : List String :=
  ["# HELP " ++ name ++ " " ++ help, "# TYPE " ++ name ++ " " ++ kind]

/-- One sample of a metric. -/
def sample (name label value : String) (n : Nat) : String :=
  name ++ "\x7b" ++ label ++ "=\"" ++ value ++ "\"\x7d " ++ toString n

/-- A family of metrics with its samples; without samples it is left out. -/
def family (name help kind label : String) (count : String) (samples : List (String × Nat)) :
    List String :=
  if samples.isEmpty then []
  else head name help kind ++ samples.map fun s => sample (name ++ count) label s.1 s.2

/-- The number of transfers for each way to end that occurred. -/
def transfers (m : Metrics) : List (String × Nat) :=
  [("error", m.failed), ("ok", m.completed)].filter fun s => 0 < s.2

/-- **The metrics in text form,** line by line and without measured times: families by name, samples
by label. The head of the transfer times is always there. -/
def lines (m : Metrics) : List String :=
  family "ledger_db_query_duration_seconds" "Database query duration in seconds" "histogram"
    "operation" "_count" m.queries.counts ++
  family "ledger_errors_total" "Total number of errors by type" "counter" "error_type" ""
    m.errors.counts ++
  head "ledger_transfer_duration_seconds" "Transfer unit of work duration in seconds" "histogram" ++
  family "ledger_transfers_total" "Total number of transfers attempted" "counter" "status" ""
    m.transfers

end Metrics

end DoubleEntry
