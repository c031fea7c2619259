import DoubleEntry.Proofs.Sessions
set_option autoImplicit false

/-! # What kind of error it is

An operation on a database fails in one of a few ways, and each of them is an error of a kind of its
own (`Operation.Classifies`): a write that the backend refused because of the values in it violates
a constraint, a transport that failed is a lost connection, and everything else is an error of the
database, rows that cannot be read among it. Transactions have kinds of errors of their own
(`Session.Reports`).
-/

namespace DoubleEntry.Database

/-! ## Reading rows -/

/-- Whether a failure is about a row: it is missing, or one of its columns has no value that can be
read. -/
def Failure.isOfRow : Failure → Bool
  | .rowNotFound | .column _ _ => true
  | _ => false

/-- Something was read, or a row is to blame that it was not. -/
def Legible {α : Type} (x : Except Failure α) : Prop := ∀ f, x = .error f → f.isOfRow = true

namespace Legible

variable {α β : Type}

theorem ok (a : α) : Legible (.ok a : Except Failure α) := nofun

theorem error {f : Failure} (h : f.isOfRow = true) : Legible (.error f : Except Failure α) := by
  rintro g ⟨⟩
  exact h

theorem bind {x : Except Failure α} {read : α → Except Failure β} (hx : Legible x)
    (hread : ∀ a, Legible (read a)) : Legible (x >>= read) := by
  cases x with
  | error f => exact error (hx f rfl)
  | ok a => exact hread a

theorem map {x : Except Failure α} (hx : Legible x) (g : α → β) : Legible (g <$> x) := by
  cases x with
  | error f => exact error (hx f rfl)
  | ok a => exact ok (g a)

theorem mapM {read : α → Except Failure β} (hread : ∀ a, Legible (read a)) (as : List α) :
    Legible (as.mapM read) := by
  induction as with
  | nil => exact ok []
  | cons a as ih =>
      rw [List.mapM_cons]
      exact (hread a).bind fun b => ih.bind fun bs => ok (b :: bs)

end Legible

namespace Row

theorem legible_int (r : Row) (column : String) : Legible (r.int column) := by
  unfold int
  split
  · exact .ok _
  · exact .error rfl
  · exact .error rfl

theorem legible_text (r : Row) (column : String) : Legible (r.text column) := by
  unfold text
  split
  · exact .ok _
  · exact .error rfl
  · exact .error rfl

theorem legible_timestamp (r : Row) (column : String) : Legible (r.timestamp column) := by
  refine (r.legible_int column).bind fun n => ?_
  cases Timestamp.ofMicroseconds2000? n with
  | some t => exact .ok t
  | none => exact .error rfl

theorem legible_account (r : Row) : Legible r.account :=
  (r.legible_int _).bind fun _ => (r.legible_text _).bind fun _ => (r.legible_int _).bind fun _ =>
    (r.legible_text _).bind fun _ => (r.legible_timestamp _).bind fun _ => .ok _

theorem legible_entry (r : Row) : Legible r.entry :=
  (r.legible_int _).bind fun _ => (r.legible_int _).bind fun _ => (r.legible_int _).bind fun _ =>
    (r.legible_timestamp _).bind fun _ => .ok _

theorem legible_transfer (r : Row) : Legible r.transfer :=
  (r.legible_int _).bind fun _ => (r.legible_int _).bind fun _ => (r.legible_int _).bind fun _ =>
    (r.legible_int _).bind fun _ => (r.legible_timestamp _).bind fun _ => .ok _

end Row

namespace Result

variable {α : Type} {read : Row → Except Failure α}

theorem legible_first? (r : Result) (h : ∀ row, Legible (read row)) : Legible (r.first? read) := by
  unfold first?
  cases r.rows with
  | nil => exact .ok none
  | cons row rows => exact (h row).map some

theorem legible_first (r : Result) (h : ∀ row, Legible (read row)) : Legible (r.first read) := by
  unfold first
  cases r.rows with
  | nil => exact .error rfl
  | cons row rows => exact h row

theorem legible_all (r : Result) (h : ∀ row, Legible (read row)) : Legible (r.all read) :=
  .mapM h r.rows

end Result

namespace Operation

/-- **Reading the result of a statement fails only because of a row.** -/
theorem legible_read (op : Operation) (r : Result) : Legible (op.read r) := by
  cases op with
  | createTransfer n => exact (r.legible_first Row.legible_transfer).map _
  | createEntry n => exact (r.legible_first Row.legible_entry).map _
  | addBalance account delta =>
      refine (r.legible_first? Row.legible_account).bind fun a? => ?_
      cases a? with
      | some a => exact .ok _
      | none => exact .ok _
  | createAccount n => exact (r.legible_first Row.legible_account).map _
  | getAccount id => exact (r.legible_first? Row.legible_account).map _
  | listAccounts page => exact (r.legible_all Row.legible_account).map _
  | updateAccount id balance => exact (r.legible_first? Row.legible_account).map _
  | deleteAccount id => exact .ok _
  | getEntry id => exact (r.legible_first? Row.legible_entry).map _
  | listEntries account page => exact (r.legible_all Row.legible_entry).map _
  | getTransfer id => exact (r.legible_first? Row.legible_transfer).map _
  | listTransfers source target page => exact (r.legible_all Row.legible_transfer).map _
  | healthCheck => exact .ok _

end Operation

/-! ## Kinds of failures -/

/-- The connection failed, or its encryption, its messages or the pool that it comes from. -/
def Failure.OfTransport (f : Failure) : Prop :=
  (∃ reason, f = .io reason ∨ f = .tls reason ∨ f = .protocol reason) ∨
    f = .poolTimedOut ∨ f = .poolClosed ∨ f = .workerCrashed

theorem Failure.isTransport_iff (f : Failure) : f.isTransport = true ↔ f.OfTransport := by
  cases f <;> simp [isTransport, OfTransport]

theorem Failure.not_ofTransport {f : Failure} (h : f.isOfRow = true) : ¬ f.OfTransport := by
  cases f with
  | rowNotFound => simp [OfTransport]
  | column name reason => simp [OfTransport]
  | _ => exact nomatch h

/-- A broken foreign key, check, unique or non-null constraint, or a number out of range. -/
def Rejection.OfConstraint (j : Rejection) : Prop :=
  j.code ∈ ["23503", "23514", "23505", "23502", "22003"]

theorem Rejection.isConstraint_iff (j : Rejection) : j.isConstraint = true ↔ j.OfConstraint := by
  simp [isConstraint, constraintCodes, OfConstraint]
  tauto

namespace Operation

/-- The operations that change the ledger. -/
inductive Writes : Operation → Prop where
  | createTransfer (n : NewTransfer) : Writes (.createTransfer n)
  | createEntry (n : NewEntry) : Writes (.createEntry n)
  | addBalance (account delta : Int) : Writes (.addBalance account delta)
  | createAccount (n : NewAccount) : Writes (.createAccount n)
  | updateAccount (id balance : Int) : Writes (.updateAccount id balance)
  | deleteAccount (id : Int) : Writes (.deleteAccount id)

theorem isWrite_iff (op : Operation) : op.isWrite = true ↔ op.Writes := by
  constructor
  · intro h
    cases op <;> first
      | constructor
      | exact nomatch h
  · rintro ⟨⟩ <;> rfl

/-- What each operation is called in messages. -/
inductive Titled : Operation → String → Prop where
  | createTransfer (n : NewTransfer) : Titled (.createTransfer n) "create transfer"
  | createEntry (n : NewEntry) : Titled (.createEntry n) "create entry"
  | addBalance (account delta : Int) : Titled (.addBalance account delta) "add account balance"
  | createAccount (n : NewAccount) : Titled (.createAccount n) "create account"
  | getAccount (id : Int) : Titled (.getAccount id) "get account"
  | listAccounts (page : Page) : Titled (.listAccounts page) "list accounts"
  | updateAccount (id balance : Int) : Titled (.updateAccount id balance) "update account"
  | deleteAccount (id : Int) : Titled (.deleteAccount id) "delete account"
  | getEntry (id : Int) : Titled (.getEntry id) "get entry"
  | listEntries (account : Int) (page : Page) : Titled (.listEntries account page) "list entries"
  | getTransfer (id : Int) : Titled (.getTransfer id) "get transfer"
  | listTransfers (source target : Int) (page : Page) :
      Titled (.listTransfers source target page) "list transfers"
  | healthCheck : Titled .healthCheck "run health check"

/-- Each operation has one title. -/
theorem titled_iff {op : Operation} {title : String} : op.Titled title ↔ title = op.title := by
  constructor
  · rintro ⟨⟩ <;> rfl
  · rintro rfl
    cases op <;> constructor

variable {op : Operation} {r : Except Failure Result}

/-- What went wrong with an operation: its statement failed, or nothing can be read from what the
statement returned. -/
def Fails (op : Operation) (r : Except Failure Result) (f : Failure) : Prop :=
  r = .error f ∨ ∃ result, r = .ok result ∧ op.read result = .error f

/-- What is told about an operation that failed names it and what went wrong. -/
def Explains (op : Operation) (f : Failure) (reason : String) : Prop :=
  ∃ title, op.Titled title ∧ reason = "Failed to " ++ title ++ ": " ++ f.message

theorem explains_iff {f : Failure} {reason : String} :
    op.Explains f reason ↔ reason = "Failed to " ++ op.title ++ ": " ++ f.message := by
  unfold Explains
  simp only [titled_iff, exists_eq_left]

theorem explains_title (op : Operation) (f : Failure) :
    op.Explains f ("Failed to " ++ op.title ++ ": " ++ f.message) := explains_iff.2 rfl

/-- What an operation that ended with an error suffered. -/
def Suffers (op : Operation) (r : Except Failure Result) : LedgerError → Prop
  | .constraintViolation v =>
      ∃ j title, op.Writes ∧ r = .error (.rejected j) ∧ j.OfConstraint ∧ op.Titled title ∧
        v = .refused title j.constraint j.message
  | .connectionLost reason => ∃ f, r = .error f ∧ f.OfTransport ∧ op.Explains f reason
  | .database reason =>
      ∃ f, op.Fails r f ∧ ¬ f.OfTransport ∧ (∀ j, f = .rejected j → op.Writes → ¬ j.OfConstraint) ∧
        op.Explains f reason
  | .accountNotFound account =>
      ∃ delta result, op = .addBalance account delta ∧ r = .ok result ∧ result.rows = []
  | _ => False

/-- A failure that is neither a violated constraint nor about the transport is one of the
database. -/
theorem error_of_not_constraint {f : Failure}
    (h : ∀ j, f = .rejected j → op.Writes → ¬ j.OfConstraint) :
    op.error f = f.whileDoing op.title := by
  cases f with
  | rejected j =>
      have hnot : ¬ (op.isWrite = true ∧ j.isConstraint = true) := by
        rw [isWrite_iff, j.isConstraint_iff]
        exact fun hboth => h j rfl hboth.1 hboth.2
      exact if_neg hnot
  | _ => rfl

/-- A write that the backend refused because of the values in it. -/
theorem conclude_refused {j : Rejection} {title : String} (hw : op.Writes) (hj : j.OfConstraint)
    (htitle : op.Titled title) : op.conclude (.error (.rejected j)) =
      .error (.constraintViolation (.refused title j.constraint j.message)) := by
  obtain rfl := titled_iff.1 htitle
  have herror : op.error (.rejected j) =
      .constraintViolation (.refused op.title j.constraint j.message) :=
    if_pos ⟨op.isWrite_iff.2 hw, j.isConstraint_iff.2 hj⟩
  exact congrArg Except.error herror

/-- A statement that the backend did not get, or whose answer did not arrive. -/
theorem conclude_lost {f : Failure} {reason : String} (h : f.OfTransport)
    (hreason : op.Explains f reason) : op.conclude (.error f) = .error (.connectionLost reason) := by
  obtain rfl := explains_iff.1 hreason
  have hnot : ∀ j, f = .rejected j → op.Writes → ¬ j.OfConstraint := by
    rintro j rfl
    simp [Failure.OfTransport] at h
  have herror := error_of_not_constraint hnot
  unfold Failure.whileDoing at herror
  rw [if_pos (f.isTransport_iff.2 h)] at herror
  exact congrArg Except.error herror

/-- Whatever else went wrong. -/
theorem conclude_wrong {f : Failure} {reason : String} (h : op.Fails r f) (ht : ¬ f.OfTransport)
    (hnot : ∀ j, f = .rejected j → op.Writes → ¬ j.OfConstraint) (hreason : op.Explains f reason) :
    op.conclude r = .error (.database reason) := by
  obtain rfl := explains_iff.1 hreason
  have herror := error_of_not_constraint hnot
  unfold Failure.whileDoing at herror
  rw [if_neg (fun htrue => ht (f.isTransport_iff.1 htrue))] at herror
  rcases h with rfl | ⟨result, rfl, hread⟩
  · exact congrArg Except.error herror
  · rw [conclude_unread hread]
    exact congrArg Except.error herror

/-- An adjustment that changed no row. -/
theorem conclude_missing (account delta : Int) {result : Result} (h : result.rows = []) :
    (addBalance account delta).conclude (.ok result) = .error (.accountNotFound account) := by
  have hread : (addBalance account delta).read result =
      .ok (.error (.accountNotFound account)) := by
    rw [read_addBalance]
    unfold Result.first?
    rw [h]
    rfl
  exact conclude_read hread

/-- What a statement returned is read as an account that is not there only if it is no row. -/
theorem rows_of_read_eq_error {account delta : Int} {result : Result} {e : LedgerError}
    (h : (addBalance account delta).read result = .ok (.error e)) : result.rows = [] := by
  rw [read_addBalance] at h
  unfold Result.first? at h
  cases hrows : result.rows with
  | nil => rfl
  | cons row rows =>
      rw [hrows] at h
      dsimp only at h
      cases hrow : row.account with
      | error f =>
          rw [hrow] at h
          exact nomatch h
      | ok a =>
          rw [hrow] at h
          exact nomatch h

/-- An error about a statement that failed. -/
theorem suffers_of_error {f : Failure} {e : LedgerError} (h : op.conclude (.error f) = .error e) :
    op.Suffers (.error f) e := by
  -- A constraint is judged first, and the transport only where none was violated.
  have hreason := op.explains_title f
  by_cases hnot : ∀ j, f = .rejected j → op.Writes → ¬ j.OfConstraint
  · by_cases ht : f.OfTransport
    · obtain rfl := Except.error.inj ((conclude_lost ht hreason).symm.trans h)
      exact ⟨f, rfl, ht, hreason⟩
    · obtain rfl := Except.error.inj ((conclude_wrong (.inl rfl) ht hnot hreason).symm.trans h)
      exact ⟨f, .inl rfl, ht, hnot, hreason⟩
  · push Not at hnot
    obtain ⟨j, rfl, hw, hj⟩ := hnot
    have htitle : op.Titled op.title := titled_iff.2 rfl
    obtain rfl := Except.error.inj ((conclude_refused hw hj htitle).symm.trans h)
    exact ⟨j, _, hw, rfl, hj, htitle, rfl⟩

/-- An error about a statement that the backend executed. -/
theorem suffers_of_ok {result : Result} {e : LedgerError}
    (h : op.conclude (.ok result) = .error e) : op.Suffers (.ok result) e := by
  cases hread : op.read result with
  | error f =>
      have hfails : op.Fails (.ok result) f := .inr ⟨result, rfl, hread⟩
      -- What cannot be read is a row, so that neither a constraint nor the transport is to blame.
      have hrow := op.legible_read result f hread
      have ht := Failure.not_ofTransport hrow
      have hnot : ∀ j, f = .rejected j → op.Writes → ¬ j.OfConstraint := by
        rintro j rfl
        exact nomatch hrow
      have hreason := op.explains_title f
      obtain rfl := Except.error.inj ((conclude_wrong hfails ht hnot hreason).symm.trans h)
      exact ⟨f, hfails, ht, hnot, hreason⟩
  | ok answer =>
      have hanswer : op.conclude (.ok result) = answer := conclude_read hread
      -- Only an adjustment reads an error from rows, the one for an account that is not there.
      rw [hanswer.symm.trans h] at hread
      obtain ⟨account, delta, rfl, rfl⟩ := read_eq_error hread
      exact ⟨delta, result, rfl, rfl, rows_of_read_eq_error hread⟩

/-- **An operation ends with an error exactly if it suffered what the error is for.** -/
theorem conclude_eq_error_iff {e : LedgerError} :
    op.conclude r = .error e ↔ op.Suffers r e := by
  constructor
  · cases r with
    | error f => exact suffers_of_error
    | ok result => exact suffers_of_ok
  · intro h
    cases e with
    | constraintViolation v =>
        obtain ⟨j, title, hw, rfl, hj, htitle, rfl⟩ := h
        exact conclude_refused hw hj htitle
    | connectionLost reason =>
        obtain ⟨f, rfl, ht, hreason⟩ := h
        exact conclude_lost ht hreason
    | database reason =>
        obtain ⟨f, hf, ht, hnot, hreason⟩ := h
        exact conclude_wrong hf ht hnot hreason
    | accountNotFound account =>
        obtain ⟨delta, result, rfl, rfl, hrows⟩ := h
        exact conclude_missing account delta hrows
    | _ => exact h.elim

/-- **What kind of error an operation answers** when its statement had a result or failed. -/
structure Classifies (op : Operation) (r : Except Failure Result) : Prop where
  /-- A write violates a constraint if the backend refused it because of one; nothing else does. -/
  constraint : (∃ v, op.conclude r = .error (.constraintViolation v)) ↔
    op.Writes ∧ ∃ j, r = .error (.rejected j) ∧ j.OfConstraint
  /-- What is told then is what was done, the constraint as far as it is known, and the reason that
  the backend gave. -/
  told : ∀ v, op.conclude r = .error (.constraintViolation v) →
    ∃ j title, r = .error (.rejected j) ∧ op.Titled title ∧
      (LedgerError.constraintViolation v).message =
        "Constraint violation: " ++ match j.constraint with
          | some constraint => title ++ " rejected by " ++ constraint ++ ": " ++ j.message
          | none => title ++ " rejected: " ++ j.message
  lost : ∀ reason, op.conclude r = .error (.connectionLost reason) ↔
    ∃ f, r = .error f ∧ f.OfTransport ∧ op.Explains f reason
  /-- An error of the database is whatever else went wrong, also with the rows. -/
  database : ∀ reason, op.conclude r = .error (.database reason) ↔
    ∃ f, op.Fails r f ∧ ¬ f.OfTransport ∧ (∀ j, f = .rejected j → op.Writes → ¬ j.OfConstraint) ∧
      op.Explains f reason
  /-- Only an adjustment misses an account, when its statement returns no row. -/
  missing : ∀ account, op.conclude r = .error (.accountNotFound account) ↔
    ∃ delta result, op = .addBalance account delta ∧ r = .ok result ∧ result.rows = []
  /-- There are no other kinds of errors. -/
  only : ∀ e, op.conclude r = .error e →
    (∃ v, e = .constraintViolation v) ∨ (∃ reason, e = .connectionLost reason) ∨
      (∃ reason, e = .database reason) ∨ ∃ account, e = .accountNotFound account
  /-- Trying again may help exactly where the transport failed. -/
  transient : ∀ e, op.conclude r = .error e →
    (e.isTransient = true ↔ ∃ f, r = .error f ∧ f.OfTransport)

/-- **Failures of operations are classified by what happened.** -/
theorem classifies (op : Operation) (r : Except Failure Result) : op.Classifies r where
  constraint := by
    constructor
    · rintro ⟨v, hv⟩
      obtain ⟨j, -, hw, hr, hj, -⟩ := conclude_eq_error_iff.1 hv
      exact ⟨hw, j, hr, hj⟩
    · rintro ⟨hw, j, rfl, hj⟩
      exact ⟨_, conclude_refused hw hj (titled_iff.2 rfl)⟩
  told := by
    intro v hv
    obtain ⟨j, title, -, hr, -, htitle, rfl⟩ := conclude_eq_error_iff.1 hv
    refine ⟨j, title, hr, htitle, ?_⟩
    unfold LedgerError.message Violation.message
    cases j.constraint <;> rfl
  lost _ := conclude_eq_error_iff
  database _ := conclude_eq_error_iff
  missing _ := conclude_eq_error_iff
  only := by
    intro e he
    have h := conclude_eq_error_iff.1 he
    cases e with
    | constraintViolation v => exact .inl ⟨v, rfl⟩
    | connectionLost reason => exact .inr (.inl ⟨reason, rfl⟩)
    | database reason => exact .inr (.inr (.inl ⟨reason, rfl⟩))
    | accountNotFound account => exact .inr (.inr (.inr ⟨account, rfl⟩))
    | _ => exact h.elim
  transient := by
    intro e he
    constructor
    · intro htransient
      have h := conclude_eq_error_iff.1 he
      cases e with
      | connectionLost reason =>
          obtain ⟨f, hr, ht, -⟩ := h
          exact ⟨f, hr, ht⟩
      | connectionFailure reason => exact h.elim
      | rollbackAfterFailure cause rollback => exact h.elim
      | _ => exact nomatch htransient
    · rintro ⟨f, rfl, ht⟩
      obtain rfl := Except.error.inj ((conclude_lost ht (op.explains_title f)).symm.trans he)
      rfl

end Operation

/-! ## Sessions -/

namespace Session

/-- What is heard after the next statement in the transaction of an owner: what the backend says,
and nothing any more where the connection has ended. -/
def heard (s : Session) (o : Owner) : Verdict :=
  if s.link? o = some .alive then s.verdict 0 else .closed

theorem sendIn_fst (s : Session) (o : Owner) (statement : Statement) :
    (s.sendIn o statement).1 = s.heard o := by
  unfold heard
  split
  · rename_i halive
    exact (sendIn_alive halive statement).1
  · rename_i hended
    unfold sendIn
    split
    · rename_i halive
      exact absurd halive hended
    · rfl

theorem perform_fst (s : Session) (op : Operation) :
    (s.perform op).1 = op.conclude (s.verdict 0).result := by
  unfold perform
  dsimp only
  rw [conclude_fst, verdict_send]

theorem performIn_fst (s : Session) (o : Owner) (op : Operation) :
    (s.performIn o op).1 = op.conclude (s.heard o).result := by
  unfold performIn
  dsimp only
  rw [conclude_fst, sendIn_fst]

/-- A transaction that is not begun is so because of a failure. -/
theorem begin_eq_error {s : Session} {o : Owner} {e : LedgerError}
    (h : (s.begin o).1 = .error e) : ∃ f : Failure, e = f.whileBeginning := by
  unfold begin at h
  split at h
  · exact nomatch h
  · exact ⟨_, (Except.error.inj h).symm⟩
  · exact ⟨_, (Except.error.inj h).symm⟩
  · exact ⟨_, (Except.error.inj h).symm⟩

/-- A transaction that is not ended in order is so because of what is heard then. -/
theorem finish_fst (s : Session) (o : Owner) (statement : Statement)
    (error : Failure → LedgerError) : (s.finish o statement error).1 =
      ((s.heard o).result.map fun _ => ()).mapError error := by
  have hheard := sendIn_fst s o statement
  unfold finish
  split
  · rename_i r s₁ heq
    rw [← hheard, heq]
    rfl
  · rename_i verdict s₁ _ heq
    rw [← hheard, heq]

theorem finish_eq_error {s : Session} {o : Owner} {statement : Statement}
    {error : Failure → LedgerError} {e : LedgerError}
    (h : (s.finish o statement error).1 = .error e) : ∃ f, e = error f := by
  rw [finish_fst] at h
  cases hresult : (s.heard o).result with
  | error f =>
      rw [hresult] at h
      exact ⟨f, (Except.error.inj h).symm⟩
  | ok result =>
      rw [hresult] at h
      exact nomatch h

end Session

end DoubleEntry.Database

namespace DoubleEntry

open Database

/-- The operation that answers a query. -/
def Query.operation : Query → Operation
  | .account id => .getAccount id
  | .accounts page => .listAccounts page
  | .entry id => .getEntry id
  | .entries id page => .listEntries id page
  | .transfer id => .getTransfer id
  | .transfers source target page => .listTransfers source target page

/-- The operation that is done in a unit of work, if the unit of work is not ended. -/
def UnitAction.operation? : UnitAction → Option Operation
  | .createTransfer n => some (.createTransfer n)
  | .createEntry n => some (.createEntry n)
  | .addBalance account delta => some (.addBalance account delta)
  | .commit | .rollback | .drop => none

/-- The operation that a command asks for, if it asks for one. -/
def Command.operation? : Command → Option Operation
  | .query q => some q.operation
  | .createAccount n => some (.createAccount n)
  | .updateAccount id balance => some (.updateAccount id balance)
  | .deleteAccount id => some (.deleteAccount id)
  | .onUnit _ action => action.operation?
  | .begin _ | .transfer _ _ => none

namespace Database

/-- A reply that tells how an operation came out after what the backend said to its statement. -/
def Operation.Tells (op : Operation) (v : Verdict) (reply : Reply) : Prop :=
  ∃ value : op.Answer → Value, reply = .of value (op.conclude v.result)

namespace Session

theorem heard_cases (s : Session) (o : Owner) : s.heard o = s.verdict 0 ∨ s.heard o = .closed := by
  unfold heard
  split
  · exact .inl rfl
  · exact .inr rfl

theorem tells_perform (s : Session) (op : Operation) (value : op.Answer → Value) :
    op.Tells (s.verdict 0) (.of value (s.perform op).1) :=
  ⟨value, congrArg (Reply.of value) (s.perform_fst op)⟩

theorem tells_performIn (s : Session) (o : Owner) (op : Operation) (value : op.Answer → Value) :
    op.Tells (s.heard o) (.of value (s.performIn o op).1) :=
  ⟨value, congrArg (Reply.of value) (s.performIn_fst o op)⟩

theorem tells_queryReply (s : Session) (q : Query) :
    q.operation.Tells (s.verdict 0) (s.queryReply q).1 := by
  cases q <;> exact s.tells_perform _ _

theorem tells_onUnit (s : Session) (o : Owner) {action : UnitAction} {op : Operation}
    (h : action.operation? = some op) : op.Tells (s.heard o) (s.onUnit o action).1 := by
  cases action with
  | createTransfer n =>
      obtain rfl := Option.some.inj h
      exact s.tells_performIn o _ _
  | createEntry n =>
      obtain rfl := Option.some.inj h
      exact s.tells_performIn o _ _
  | addBalance account delta =>
      obtain rfl := Option.some.inj h
      exact s.tells_performIn o _ _
  | _ => exact nomatch h

/-- **A command that asks for an operation** is refused, or tells how the operation came out. -/
theorem tells_submit (s : Session) {c : Command} {op : Operation} (h : c.operation? = some op) :
    (∃ refusal, s.submit c = (.error refusal, s)) ∨
      ∃ v reply, (v = s.verdict 0 ∨ v = .closed) ∧ (s.submit c).1 = .ok reply ∧
        op.Tells v reply := by
  cases c with
  | query q =>
      obtain rfl := Option.some.inj h
      exact .inr ⟨_, _, .inl rfl, rfl, s.tells_queryReply q⟩
  | createAccount n =>
      obtain rfl := Option.some.inj h
      exact .inr ⟨_, _, .inl rfl, rfl, s.tells_perform _ _⟩
  | updateAccount id balance =>
      obtain rfl := Option.some.inj h
      exact .inr ⟨_, _, .inl rfl, rfl, s.tells_perform _ _⟩
  | deleteAccount id =>
      obtain rfl := Option.some.inj h
      exact .inr ⟨_, _, .inl rfl, rfl, s.tells_perform _ _⟩
  | onUnit unit action =>
      dsimp only [submit]
      cases s.unavailable? unit with
      | some refusal => exact .inl ⟨refusal, rfl⟩
      | none => exact .inr ⟨_, _, s.heard_cases _, rfl, s.tells_onUnit (.unit unit) h⟩
  | begin unit => exact nomatch h
  | transfer n faults => exact nomatch h

/-- **What a session answers when something fails.** -/
structure Reports (s : Session) : Prop where
  /-- An operation is judged by what the backend says to its statement. -/
  perform : ∀ op : Operation, (s.perform op).1 = op.conclude (s.verdict 0).result
  performIn : ∀ o (op : Operation), (s.performIn o op).1 = op.conclude (s.heard o).result
  submit : ∀ c op, c.operation? = some op →
    (∃ refusal, s.submit c = (.error refusal, s)) ∨
      ∃ v reply, (v = s.verdict 0 ∨ v = .closed) ∧ (s.submit c).1 = .ok reply ∧ op.Tells v reply
  healthCheck : ∀ v, s.healthCheck.1 ≠ .error (.constraintViolation v)
  begin : ∀ o e, (s.begin o).1 = .error e → ∃ f : Failure, e = f.whileBeginning
  commit : ∀ o e, (s.commit o).1 = .error e → ∃ f : Failure, e = f.whileCommitting
  rollback : ∀ o e, (s.rollback o).1 = .error e → ∃ f : Failure, e = f.whileRollingBack

theorem reports (s : Session) : s.Reports where
  perform := s.perform_fst
  performIn := s.performIn_fst
  submit _ _ := s.tells_submit
  healthCheck v hv := by
    have hv : (s.perform .healthCheck).1 = .error (.constraintViolation v) := hv
    rw [perform_fst] at hv
    obtain ⟨j, -, hw, -⟩ := Operation.conclude_eq_error_iff.1 hv
    exact nomatch hw
  begin _ _ := begin_eq_error
  commit _ _ := finish_eq_error
  rollback _ _ := finish_eq_error

/-- **Errors are classified by what happened,** for every operation and every failure, and in every
state of a session. -/
theorem classified :
    (∀ op r, Operation.Classifies op r) ∧
    (∀ f : Failure,
      f.whileBeginning = .connectionFailure ("Failed to begin transaction: " ++ f.message) ∧
      f.whileCommitting = .commitFailure ("Failed to commit transaction: " ++ f.message) ∧
      f.whileRollingBack = .rollbackFailure ("Failed to roll back transaction: " ++ f.message)) ∧
    ∀ s : Session, s.Reports :=
  ⟨Operation.classifies, fun _ => ⟨rfl, rfl, rfl⟩, reports⟩

end Session

end Database

end DoubleEntry
