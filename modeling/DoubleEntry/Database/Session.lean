import DoubleEntry.Command
import DoubleEntry.Database.Row
import DoubleEntry.Database.Timer
import DoubleEntry.Owner
import DoubleEntry.Transfer.Prompt
set_option autoImplicit false

/-! # Sessions with a database

A ledger that is kept in a database. Every unit of work has a transaction on a connection of its
own, and every other operation takes a connection that lives. What the backend says to the
statements to come is part of the state, so that a session can be followed for every behaviour of
the backend.

A transaction that is given up while its connection lives is rolled back by one more statement; on a
connection that ended nothing is sent any more.
-/

namespace DoubleEntry.Database

/-- What a backend says to a statement. -/
inductive Verdict where
  | executed (r : Result)
  | rejected (r : Rejection)
  /-- A message that does not belong there; the connection lives on. -/
  | unexpected
  /-- The connection ends. -/
  | closed
  deriving DecidableEq, Repr, Inhabited

/-- The result of a statement. -/
def Verdict.result : Verdict → Except Failure Result
  | .executed r => .ok r
  | .rejected r => .error (.rejected r)
  | .unexpected => .error .unexpectedMessage
  | .closed => .error .endOfConnection

/-- The connection of a unit of work. -/
inductive Link where
  | alive
  | ended
  deriving DecidableEq, Repr

/-- A session with a database. -/
structure Session where
  /-- What the backend says to the statements to come; to all others it says that it executed
  them. -/
  verdicts : List Verdict := []
  /-- The statements that the backend got, in order. -/
  sent : List Statement := []
  /-- The open units of work with their connections, in the order in which they were begun. -/
  units : List (Owner × Link) := []
  /-- How many units of work can be open under names. -/
  mostUnits : Nat := 3
  metrics : Metrics := {}
  deriving DecidableEq, Repr, Inhabited

namespace Session

/-! ## Statements -/

/-- Sends a statement to the backend. -/
def send (s : Session) (statement : Statement) : Verdict × Session :=
  (s.verdicts.headD (.executed {}),
    { s with verdicts := s.verdicts.tail, sent := s.sent ++ [statement] })

/-- The connection of an owner's unit of work. -/
def link? (s : Session) (o : Owner) : Option Link := s.units.lookup o

/-- Opens a unit of work on a connection that lives. -/
def openUnit (s : Session) (o : Owner) : Session := { s with units := s.units ++ [(o, .alive)] }

/-- Forgets the unit of work of an owner. -/
def closeUnit (s : Session) (o : Owner) : Session :=
  { s with units := s.units.filter fun u => u.1 ≠ o }

/-- Notes that the connection of an owner's unit of work has ended. -/
def loseLink (s : Session) (o : Owner) : Session :=
  { s with units := s.units.map fun u => if u.1 = o then (o, .ended) else u }

/-- Sends a statement over the connection of an owner's unit of work, if the connection lives. -/
def sendIn (s : Session) (o : Owner) (statement : Statement) : Verdict × Session :=
  match s.link? o with
  | some .alive =>
      match s.send statement with
      | (.closed, s) => (.closed, s.loseLink o)
      | r => r
  | _ => (.closed, s)

/-! ## Operations -/

/-- Stops the timer of an operation. -/
def stopTimer (s : Session) : Option Timer → Option Timer × Session
  | none => (none, s)
  | some t =>
      let (t, metrics) := t.stop s.metrics
      (some t, { s with metrics })

/-- The timer of an operation goes out of scope. -/
def dropTimer (s : Session) : Option Timer → Session
  | none => s
  | some t => { s with metrics := t.drop s.metrics }

/-- **Concludes an operation** by what was heard about its statement. One that has read nothing fails
at once, while its timer still runs; any other stops its timer before it answers, be it with an
error. -/
def conclude (s : Session) (op : Operation) (timer? : Option Timer) (v : Verdict) :
    Except LedgerError op.Answer × Session :=
  match op.fetch v.result with
  | .error e => (.error e, s.dropTimer timer?)
  | .ok answer =>
      let (timer?, s) := s.stopTimer timer?
      (answer, s.dropTimer timer?)

/-- **Carries out an operation** on a connection that is free. -/
def perform (s : Session) (op : Operation) : Except LedgerError op.Answer × Session :=
  let timer? := op.timer?
  let (verdict, s) := s.send op.statement
  s.conclude op timer? verdict

/-- **Carries out an operation in the transaction** of an owner's unit of work. -/
def performIn (s : Session) (o : Owner) (op : Operation) : Except LedgerError op.Answer × Session :=
  let timer? := op.timer?
  let (verdict, s) := s.sendIn o op.statement
  s.conclude op timer? verdict

/-! ## Transactions -/

/-- Begins a unit of work. If the backend does not begin the transaction, nothing is left of it. -/
def begin (s : Session) (o : Owner) : Except LedgerError Unit × Session :=
  match s.send .begin with
  | (.executed _, s) => (.ok (), s.openUnit o)
  | (.unexpected, s) => (.error Failure.notBegun.whileBeginning, s)
  | (.rejected r, s) => (.error (Failure.rejected r).whileBeginning, s)
  | (.closed, s) => (.error Failure.endOfConnection.whileBeginning, s)

/-- **Gives a unit of work up.** The transaction is rolled back if its connection lives. -/
def drop (s : Session) (o : Owner) : Session :=
  match s.link? o with
  | some .alive => (s.send .rollback).2.closeUnit o
  | _ => s.closeUnit o

/-- Ends a unit of work by a statement. If the statement fails, the unit of work is given up. -/
def finish (s : Session) (o : Owner) (statement : Statement) (error : Failure → LedgerError) :
    Except LedgerError Unit × Session :=
  match s.sendIn o statement with
  | (.executed _, s) => (.ok (), s.closeUnit o)
  | (verdict, s) => ((verdict.result.map fun _ => ()).mapError error, s.drop o)

/-- Commits a unit of work. -/
def commit (s : Session) (o : Owner) : Except LedgerError Unit × Session :=
  s.finish o .commit Failure.whileCommitting

/-- Rolls a unit of work back. -/
def rollback (s : Session) (o : Owner) : Except LedgerError Unit × Session :=
  s.finish o .rollback Failure.whileRollingBack

/-- A session as it is seen by the transfer that is carried out for an owner. -/
def store (o : Owner) : Store Session where
  perform
    | .begin, s => let (r, s) := s.begin o; (some r, s)
    | .createTransfer n, s => let (r, s) := s.performIn o (.createTransfer n); (some r, s)
    | .createEntry n, s => let (r, s) := s.performIn o (.createEntry n); (some r, s)
    | .addBalance account delta, s =>
        let (r, s) := s.performIn o (.addBalance account delta); (some r, s)
    | .commit, s => let (r, s) := s.commit o; (some r, s)
    | .rollback, s => let (r, s) := s.rollback o; (some r, s)
  refuse
    | .commit, s => s.drop o
    | .rollback, s => (s.rollback o).2
    | _, s => s

theorem store_prompt (o : Owner) : (store o).Prompt := by
  intro c s
  cases c <;> rfl

/-- Who carries transfers out. Each of them ends before anything else is done. -/
def engine : Owner := .call 0

/-- **Carries a transfer out:** its outcome, and the calls that it made. Whatever is left of its
unit of work is given up. -/
def transfer (s : Session) (run : Run) : (Outcome × List Call) × Session :=
  let (ended, s) := (store engine).complete (store_prompt engine) run s
  (ended, { s.drop engine with metrics := s.metrics.recordOutcome ended.1 })

/-! ## Commands -/

/-- Why nothing can be done in the unit of work with a name, if that is so. -/
def unavailable? (s : Session) (unit : String) : Option Refusal :=
  if (s.link? (.unit unit)).isSome then none else some .noSuchUnit

/-- Why no unit of work can be begun under a name, if that is so. -/
def unopenable? (s : Session) (unit : String) : Option Refusal :=
  if (s.link? (.unit unit)).isSome ∨ s.mostUnits ≤ s.units.length then some .unitExistsOrTooMany
  else none

/-- The operation that answers a query. -/
def queryReply (s : Session) : Query → Reply × Session
  | .account id => let (r, s) := s.perform (.getAccount id); (.of .optionalAccount r, s)
  | .accounts page => let (r, s) := s.perform (.listAccounts page); (.of .accounts r, s)
  | .entry id => let (r, s) := s.perform (.getEntry id); (.of .optionalEntry r, s)
  | .entries account page =>
      let (r, s) := s.perform (.listEntries account page); (.of .entries r, s)
  | .transfer id => let (r, s) := s.perform (.getTransfer id); (.of .optionalTransfer r, s)
  | .transfers source target page =>
      let (r, s) := s.perform (.listTransfers source target page); (.of .transfers r, s)

/-- Does something in a unit of work. -/
def onUnit (s : Session) (o : Owner) : UnitAction → Reply × Session
  | .createTransfer n => let (r, s) := s.performIn o (.createTransfer n); (.of .transfer r, s)
  | .createEntry n => let (r, s) := s.performIn o (.createEntry n); (.of .entry r, s)
  | .addBalance account delta =>
      let (r, s) := s.performIn o (.addBalance account delta); (.of .account r, s)
  | .commit => let (r, s) := s.commit o; (.of (fun _ => .nothing) r, s)
  | .rollback => let (r, s) := s.rollback o; (.of (fun _ => .nothing) r, s)
  | .drop => (.done .nothing, s.drop o)

/-- **Takes a command.** -/
def submit (s : Session) : Command → Except Refusal Reply × Session
  | .query q => let (r, s) := s.queryReply q; (.ok r, s)
  | .createAccount n => let (r, s) := s.perform (.createAccount n); (.ok (.of .account r), s)
  | .updateAccount id balance =>
      let (r, s) := s.perform (.updateAccount id balance); (.ok (.of .optionalAccount r), s)
  | .deleteAccount id => let (r, s) := s.perform (.deleteAccount id); (.ok (.of .flag r), s)
  | .begin unit =>
      match s.unopenable? unit with
      | some r => (.error r, s)
      | none => let (r, s) := s.begin (.unit unit); (.ok (.of (fun _ => .nothing) r), s)
  | .onUnit unit action =>
      match s.unavailable? unit with
      | some r => (.error r, s)
      | none => let (r, s) := s.onUnit (.unit unit) action; (.ok r, s)
  | .transfer n faults =>
      let (ended, s) := s.transfer { request := n, faults }
      (.ok (.transfer ended.1 ended.2), s)

/-- Asks the database whether it is there. -/
def healthCheck (s : Session) : Except LedgerError Unit × Session := s.perform .healthCheck

/-- Who has open units of work, by name. -/
def owners (s : Session) : List Owner :=
  (s.units.map Prod.fst).mergeSort fun a b => a.name ≤ b.name

/-- Gives up all units of work that are still open, by name. -/
def close (s : Session) : Session := s.owners.foldl drop s

end Session

end DoubleEntry.Database
