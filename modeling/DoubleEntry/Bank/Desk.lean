import DoubleEntry.Bank.Account
import DoubleEntry.Bank.Query
import DoubleEntry.Bank.Work
import DoubleEntry.Command
import DoubleEntry.Metrics
set_option autoImplicit false

/-! # Calls to a bank

A desk takes commands to a bank. A command that has to wait for a row lock stays pending and is
asked again later (`Desk.poll`) or cancelled (`Desk.cancel`); everything else is done at once.
Commands are numbered, and a pending call is known by the number of its command. `Desk.settle` asks
the pending calls in the order of their numbers, again and again until none of them gets any
further.
-/

namespace DoubleEntry

/-- A call that may have to wait for row locks. -/
inductive Request where
  | addBalance (unit : String) (account delta : Int)
  | updateAccount (account balance : Int)
  | deleteAccount (account : Int)
  | transfer (run : Run)
  deriving DecidableEq, Repr

namespace Request

/-- The account whose row lock a pending call waits for. -/
def awaits? : Request → Option Int
  | .addBalance _ account _ => some account
  | .updateAccount account _ => some account
  | .deleteAccount account => some account
  | .transfer run =>
      match run.call with
      | .addBalance account _ => some account
      | _ => none

/-- Who asks for the row locks of a call. -/
def owner (number : Nat) : Request → Owner
  | .addBalance unit _ _ => .unit unit
  | _ => .call number

end Request

/-- A bank with the calls that are pending at it. -/
structure Desk where
  bank : Bank
  pending : List (Nat × Request) := []
  metrics : Metrics := {}
  /-- The number of the next command. -/
  next : Nat := 0
  deriving DecidableEq, Repr

/-- What a command answers at once. -/
inductive Response where
  | reply (r : Reply)
  | blocked
  | refused (r : Refusal)
  /-- A call was cancelled; if it was a transfer, with the calls that it had made. -/
  | cancelled (made : Option (List Call))
  deriving DecidableEq, Repr

namespace Bank

/-- The answer to a query. -/
def answer (b : Bank) : Query → Value
  | .account id => .optionalAccount (b.getAccount id)
  | .accounts page => .accounts (b.listAccounts page)
  | .entry id => .optionalEntry (b.getEntry id)
  | .entries account page => .entries (b.listEntries account page)
  | .transfer id => .optionalTransfer (b.getTransfer id)
  | .transfers source target page => .transfers (b.listTransfers source target page)

end Bank

namespace Desk

/-- A desk at a bank without accounts. -/
def opening (nonNegative : Bool) : Desk := { bank := .empty nonNegative }

/-! ## Pending calls -/

/-- Notes that a call waits, in place of what was noted about it before. -/
def park (d : Desk) (number : Nat) (r : Request) : Desk :=
  if (d.pending.lookup number).isSome then
    { d with pending := d.pending.map fun p => if p.1 = number then (number, r) else p }
  else { d with pending := d.pending ++ [(number, r)] }

/-- Forgets a call that waited. -/
def dismiss (d : Desk) (number : Nat) : Desk :=
  { d with pending := d.pending.filter fun p => p.1 ≠ number }

/-- What follows when a call got an answer from the bank, or none. -/
def settleCall {α : Type} (d : Desk) (number : Nat) (r : Request) (value : α → Value) :
    Option (Except LedgerError α) × Bank → Option Reply × Desk
  | (none, bank) => (none, { d with bank }.park number r)
  | (some a, bank) => (some (.of value a), { d with bank }.dismiss number)

/-- **Carries a call as far as it gets.** There is no reply if it has to wait. Whatever is left of
the unit of work of a transfer that ended is dropped. -/
def attempt (d : Desk) (number : Nat) (r : Request) : Option Reply × Desk :=
  match r with
  | .addBalance unit account delta =>
      d.settleCall number r .account (d.bank.addBalance (.unit unit) account delta)
  | .updateAccount account balance =>
      d.settleCall number r .optionalAccount (d.bank.updateAccount (.call number) account balance)
  | .deleteAccount account =>
      d.settleCall number r .flag (d.bank.deleteAccount (.call number) account)
  | .transfer run =>
      match (Bank.store (.call number)).run run d.bank with
      | (.waiting run, bank) => (none, { d with bank }.park number (.transfer run))
      | (.ended outcome made, bank) =>
          (some (.transfer outcome made),
            { d with
              bank := bank.rollback (.call number)
              metrics := d.metrics.recordOutcome outcome }.dismiss number)

/-- Asks a pending call to go on. -/
def poll (d : Desk) (number : Nat) : Option Reply × Desk :=
  match d.pending.lookup number with
  | none => (none, d)
  | some r => d.attempt number r

/-- Asks some pending calls one after the other; the replies of those that ended. -/
def pollEach (d : Desk) : List Nat → List (Nat × Reply) × Desk
  | [] => ([], d)
  | n :: rest =>
      match d.poll n with
      | (none, d) => d.pollEach rest
      | (some r, d) =>
          let (replies, d) := d.pollEach rest
          ((n, r) :: replies, d)

/-- Asks all pending calls in turn, at most so many times, until none of them ends. -/
def settleFor : Nat → Desk → List (Nat × Reply) × Desk
  | 0, d => ([], d)
  | fuel + 1, d =>
      let (replies, d) := d.pollEach (d.pending.map Prod.fst)
      if replies.isEmpty then ([], d)
      else
        let (more, d) := settleFor fuel d
        (replies ++ more, d)

/-- **Asks all pending calls in turn until none of them ends;** the replies in the order in which
the calls ended. Each round but the last ends a call. -/
def settle (d : Desk) : List (Nat × Reply) × Desk := settleFor (d.pending.length + 1) d

/-! ## Commands -/

/-- Whether an adjustment of a unit of work waits for a lock. -/
def isBusy (d : Desk) (unit : String) : Bool :=
  d.pending.any fun p =>
    match p.2 with
    | .addBalance u _ _ => u = unit
    | _ => false

/-- Whether a unit of work is open under a name. -/
def isOpen (d : Desk) (unit : String) : Bool := (d.bank.work? (.unit unit)).isSome

/-- Why nothing can be done in the unit of work with a name, if that is so. -/
def unavailable? (d : Desk) (unit : String) : Option Refusal :=
  if d.isBusy unit then some .unitBusy
  else if d.isOpen unit then none
  else some .noSuchUnit

/-- Counts a command. -/
def count (d : Desk) : Desk := { d with next := d.next + 1 }

/-- Carries out a command that ends at once. -/
def atOnce {α : Type} (d : Desk) (value : α → Value) (r : Except LedgerError α × Bank) :
    Response × Desk :=
  (.reply (.of value r.1), { d with bank := r.2 }.count)

/-- Carries out a call, or leaves it pending. -/
def call (d : Desk) (r : Request) : Response × Desk :=
  match d.attempt d.next r with
  | (none, d) => (.blocked, d.count)
  | (some reply, d) => (.reply reply, d.count)

/-- Does something in a unit of work. -/
def onUnit (d : Desk) (unit : String) : UnitAction → Response × Desk
  | .createTransfer n => d.atOnce .transfer (d.bank.createTransfer (.unit unit) n)
  | .createEntry n => d.atOnce .entry (d.bank.createEntry (.unit unit) n)
  | .addBalance account delta => d.call (.addBalance unit account delta)
  | .commit => d.atOnce (fun _ : Unit => .nothing) (.ok (), d.bank.commit (.unit unit))
  | .rollback | .drop => d.atOnce (fun _ : Unit => .nothing) (.ok (), d.bank.rollback (.unit unit))

/-- **Takes a command.** -/
def submit (d : Desk) : Command → Response × Desk
  | .query q => (.reply (.done (d.bank.answer q)), d.count)
  | .createAccount n => d.atOnce .account (d.bank.createAccount n)
  | .updateAccount id balance => d.call (.updateAccount id balance)
  | .deleteAccount id => d.call (.deleteAccount id)
  | .begin unit =>
      if d.isOpen unit then (.refused .unitExists, d.count)
      else d.atOnce (fun _ : Unit => .nothing) (.ok (), d.bank.begin (.unit unit))
  | .onUnit unit action =>
      match d.unavailable? unit with
      | some r => (.refused r, d.count)
      | none => d.onUnit unit action
  | .transfer n faults => d.call (.transfer { request := n, faults })

/-- What becomes of the bank when a pending call is given up. -/
def giveUp (d : Desk) (number : Nat) (r : Request) : Desk :=
  let bank := match r.awaits? with
    | some account => d.bank.abandon (r.owner number) account
    | none => d.bank
  match r with
  | .transfer _ =>
      { d with
        bank := bank.rollback (.call number)
        metrics := d.metrics.recordCancelled }.dismiss number
  | _ => { d with bank }.dismiss number

/-- **Cancels a pending call.** A transfer is rolled back; a unit of work whose adjustment is
cancelled stays open. -/
def cancel (d : Desk) (number : Nat) : Response × Desk :=
  match d.pending.lookup number with
  | none => (.refused .notPending, d.count)
  | some r =>
      let made := match r with
        | .transfer run => some run.made
        | _ => none
      (.cancelled made, (d.giveUp number r).count)

end Desk

end DoubleEntry
