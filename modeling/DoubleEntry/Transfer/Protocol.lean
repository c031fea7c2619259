import DoubleEntry.Error
import DoubleEntry.Transfer.LockOrder
set_option autoImplicit false

/-! # The protocol of a transfer

A transfer is carried out by a fixed sequence of calls on a ledger store: a unit of work is begun,
the transfer and its two entries are recorded in it, the two balances are adjusted in lock order,
and the unit of work is committed. A call that fails in between makes the transfer roll the unit of
work back. `Stage` says how far a transfer has come, `Stage.call` which call it makes next, and
`Stage.resume` what the answer leads to; `Store.run` makes the calls on any store.
-/

namespace DoubleEntry

/-- A call on a ledger store, or on the unit of work that was begun on it. -/
inductive Call where
  | begin
  | createTransfer (t : NewTransfer)
  | createEntry (e : NewEntry)
  | addBalance (account delta : Int)
  | commit
  | rollback
  deriving DecidableEq, Repr

namespace Call

/-- What a call answers when it succeeds. -/
def Answer : Call → Type
  | .begin | .commit | .rollback => Unit
  | .createTransfer _ => Transfer
  | .createEntry _ => Entry
  | .addBalance _ _ => Account

/-- The name of a call. -/
def name : Call → String
  | .begin => "begin"
  | .createTransfer _ => "create_transfer"
  | .createEntry _ => "create_entry"
  | .addBalance _ _ => "add_account_balance"
  | .commit => "commit"
  | .rollback => "rollback"

end Call

/-- How far a transfer has come: the call that it makes next, and the answers that it needs
later. -/
inductive Stage where
  | beginning
  | recording
  | debiting (t : Transfer)
  | crediting (t : Transfer) (debit : Entry)
  | adjustingFirst (t : Transfer) (debit credit : Entry)
  | adjustingSecond (t : Transfer) (debit credit : Entry) (first : Account)
  | committing (receipt : Receipt)
  | rollingBack (cause : LedgerError)
  deriving DecidableEq, Repr

/-- How a transfer ends. -/
inductive Outcome where
  | completed (receipt : Receipt)
  | failed (error : LedgerError)
  /-- The amount has no opposite, so that no debit can be recorded; the unit of work is given up. -/
  | overflowed
  deriving DecidableEq, Repr

/-- What is told about an amount without an opposite. -/
def Outcome.overflowMessage : String := "attempt to negate with overflow"

namespace Stage

/-- The call that a transfer makes next. -/
def call (n : NewTransfer) : Stage → Call
  | .beginning => .begin
  | .recording => .createTransfer n
  | .debiting _ => .createEntry ⟨n.source, -n.amount⟩
  | .crediting _ _ => .createEntry ⟨n.target, n.amount⟩
  | .adjustingFirst _ _ _ => .addBalance n.adjustments.1.account n.adjustments.1.delta
  | .adjustingSecond _ _ _ _ => .addBalance n.adjustments.2.account n.adjustments.2.delta
  | .committing _ => .commit
  | .rollingBack _ => .rollback

/-- The receipt of a transfer whose adjustments answered with the given accounts. -/
def receipt (n : NewTransfer) (t : Transfer) (debit credit : Entry) (first second : Account) :
    Receipt :=
  match n.adjustments.1.side with
  | .source => ⟨t, first, second, debit, credit⟩
  | .target => ⟨t, second, first, debit, credit⟩

/-- What the answer to a transfer's call leads to. -/
def resume (n : NewTransfer) :
    (s : Stage) → Except LedgerError (s.call n).Answer → Stage ⊕ Outcome
  | .beginning, .ok _ => .inl .recording
  | .beginning, .error e => .inr (.failed e)
  | .recording, .ok t =>
      match Amount.negate? n.amount with
      | some _ => .inl (.debiting t)
      | none => .inr .overflowed
  | .recording, .error e => .inl (.rollingBack e)
  | .debiting t, .ok debit => .inl (.crediting t debit)
  | .debiting _, .error e => .inl (.rollingBack e)
  | .crediting t debit, .ok credit => .inl (.adjustingFirst t debit credit)
  | .crediting _ _, .error e => .inl (.rollingBack e)
  | .adjustingFirst t debit credit, .ok first => .inl (.adjustingSecond t debit credit first)
  | .adjustingFirst _ _ _, .error e => .inl (.rollingBack e)
  | .adjustingSecond t debit credit first, .ok second =>
      .inl (.committing (receipt n t debit credit first second))
  | .adjustingSecond _ _ _ _, .error e => .inl (.rollingBack e)
  | .committing r, .ok _ => .inr (.completed r)
  | .committing _, .error e => .inr (.failed e)
  | .rollingBack cause, .ok _ => .inr (.failed cause)
  | .rollingBack cause, .error e => .inr (.failed (cause.withRollbackFailure e))

/-- A bound on the number of calls that a transfer still makes. -/
def remaining : Stage → Nat
  | .beginning => 8
  | .recording => 7
  | .debiting _ => 6
  | .crediting _ _ => 5
  | .adjustingFirst _ _ _ => 4
  | .adjustingSecond _ _ _ _ => 3
  | .committing _ => 2
  | .rollingBack _ => 1

/-- **A transfer makes only so many calls.** -/
theorem remaining_resume {n : NewTransfer} {s s' : Stage}
    {answer : Except LedgerError (s.call n).Answer} (h : s.resume n answer = .inl s') :
    s'.remaining < s.remaining := by
  cases s with
  | recording =>
      cases answer with
      | ok t =>
          simp only [resume] at h
          split at h
          · obtain rfl := Sum.inl.inj h
            simp [remaining]
          · cases h
      | error e =>
          obtain rfl := Sum.inl.inj h
          simp [remaining]
  | _ =>
      cases answer <;> first
        | (obtain rfl := Sum.inl.inj h; simp [remaining])
        | exact nomatch h

end Stage

/-! ## Faults -/

/-- A failure that is put in the place of a call: of the `nth` call of a name within a transfer. -/
structure Fault where
  call : String
  nth : Int
  error : LedgerError
  deriving DecidableEq, Repr

/-- The failure that is put in the place of a call, after the calls that were made before. -/
def faultOf? (faults : List Fault) (made : List Call) (c : Call) : Option LedgerError :=
  let nth : Int := made.countP (fun d => d.name = c.name) + 1
  (faults.find? fun f => f.call = c.name ∧ f.nth = nth).map Fault.error

/-! ## Running a transfer -/

/-- A ledger store with states of type `σ`, as a transfer sees it. -/
structure Store (σ : Type) where
  /-- Makes a call. Without an answer the call has to wait, and is to be made again later. -/
  perform : (c : Call) → σ → Option (Except LedgerError c.Answer) × σ
  /-- What becomes of the store when a fault is put in the place of a call. -/
  refuse : Call → σ → σ

/-- A transfer under way. -/
structure Run where
  request : NewTransfer
  faults : List Fault := []
  stage : Stage := .beginning
  /-- The calls that were answered, in order. -/
  answered : List Call := []
  deriving DecidableEq, Repr

namespace Run

/-- The call that the transfer makes next. -/
def call (r : Run) : Call := r.stage.call r.request

/-- The calls that a transfer made that waits for the answer to the last of them. -/
def made (r : Run) : List Call := r.answered ++ [r.call]

end Run

/-- Where a transfer stands after it made calls until one had to wait or the transfer ended. -/
inductive Advance where
  | waiting (run : Run)
  | ended (outcome : Outcome) (made : List Call)
  deriving DecidableEq, Repr

namespace Store

variable {σ : Type}

/-- Makes the next call of a transfer, or puts a fault in its place. -/
def answer (store : Store σ) (r : Run) (s : σ) :
    Option (Except LedgerError r.call.Answer) × σ :=
  match faultOf? r.faults r.answered r.call with
  | some e => (some (.error e), store.refuse r.call s)
  | none => store.perform r.call s

/-- Makes at most `fuel` calls of a transfer. -/
def runFor (store : Store σ) : Nat → Run → σ → Advance × σ
  | 0, r, s => (.waiting r, s)
  | fuel + 1, r, s =>
      match store.answer r s with
      | (none, s) => (.waiting r, s)
      | (some a, s) =>
          match r.stage.resume r.request a with
          | .inl stage => runFor store fuel { r with stage, answered := r.made } s
          | .inr outcome => (.ended outcome r.made, s)

/-- **Makes the calls of a transfer until one has to wait or the transfer ends.** -/
def run (store : Store σ) (r : Run) (s : σ) : Advance × σ := store.runFor r.stage.remaining r s

end Store

end DoubleEntry
