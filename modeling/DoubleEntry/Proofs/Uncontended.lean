import DoubleEntry.Proofs.Erasure
import DoubleEntry.Proofs.Repetition
set_option autoImplicit false

/-! # Uncontended transfers

A transfer that finds the rows of its two accounts unlocked never waits, and how far it gets can be
foretold from the committed ledger alone. The accounts are looked for first, the source before the
target; then the amount must have an opposite; then the two new balances are checked in the order in
which they are adjusted. `Stage.Foreseen` says what is known of the ledger at each stage, and
`Bank.Unhindered` what holds of the transfer between two calls.
-/

namespace DoubleEntry

open Function (update update_self update_of_ne update_eq_self)

/-! ## New balances -/

/-- A balance that an account may have. -/
def Amount.Allowed (nonNegative : Bool) (balance : Int) : Prop :=
  InRange balance ∧ (nonNegative = true → 0 ≤ balance)

instance (nonNegative : Bool) (balance : Int) : Decidable (Amount.Allowed nonNegative balance) :=
  inferInstanceAs (Decidable (_ ∧ _))

/-- Why an account may not have a balance. -/
def Violation.ofBalance (account balance : Int) : Violation :=
  if Amount.InRange balance then .negativeBalance account balance else .balanceOutOfRange account

namespace NewTransfer

/-- What both adjustments of a transfer together add to the account that is adjusted last. -/
def lastChange (n : NewTransfer) : Int :=
  n.adjustments.2.delta + if n.source = n.target then n.adjustments.1.delta else 0

end NewTransfer

namespace Ledger

/-- An account exists, and it may have what it would have after a change. -/
def Grants (nonNegative : Bool) (l : Ledger) (a delta : Int) : Prop :=
  ∃ x, l.accounts.get? a = some x ∧ Amount.Allowed nonNegative (x.balance + delta)

/-- An account exists, but it may not have what it would have after a change. -/
def Denies (nonNegative : Bool) (l : Ledger) (a delta : Int) (v : Violation) : Prop :=
  ∃ x, l.accounts.get? a = some x ∧ ¬ Amount.Allowed nonNegative (x.balance + delta) ∧
    v = .ofBalance a (x.balance + delta)

end Ledger

/-! ## What can be foretold at each stage -/

/-- A transfer gets as far as its adjustments: its accounts exist, and its amount has an
opposite. -/
structure Ledger.Feasible (l : Ledger) (n : NewTransfer) : Prop where
  source : l.accounts.contains n.source = true
  target : l.accounts.contains n.target = true
  amount : n.amount ≠ Amount.least

theorem NewTransfer.adjustments_account (n : NewTransfer) :
    (n.adjustments.1.account = n.source ∨ n.adjustments.1.account = n.target) ∧
      (n.adjustments.2.account = n.source ∨ n.adjustments.2.account = n.target) := by
  unfold adjustments
  split
  · exact ⟨.inl rfl, .inr rfl⟩
  · exact ⟨.inr rfl, .inl rfl⟩

theorem NewTransfer.adjustments_eq_iff (n : NewTransfer) :
    n.adjustments.1.account = n.adjustments.2.account ↔ n.source = n.target := by
  unfold adjustments
  split
  · exact .rfl
  · exact eq_comm

theorem Ledger.Feasible.contains {l : Ledger} {n : NewTransfer} (h : l.Feasible n) {a : Int}
    (ha : a = n.source ∨ a = n.target) : l.accounts.contains a = true := by
  rcases ha with rfl | rfl
  · exact h.source
  · exact h.target

/-- Why a ledger rejects an uncontended transfer. -/
inductive Ledger.Objects (nonNegative : Bool) (l : Ledger) (n : NewTransfer) : Violation → Prop
  | source (missing : l.accounts.contains n.source = false) :
      Objects nonNegative l n (.missingAccount .transfer n.source)
  | target (source : l.accounts.contains n.source = true)
      (missing : l.accounts.contains n.target = false) :
      Objects nonNegative l n (.missingAccount .transfer n.target)
  | first {v : Violation} (feasible : l.Feasible n)
      (denied : l.Denies nonNegative n.adjustments.1.account n.adjustments.1.delta v) :
      Objects nonNegative l n v
  | second {v : Violation} (feasible : l.Feasible n)
      (granted : l.Grants nonNegative n.adjustments.1.account n.adjustments.1.delta)
      (denied : l.Denies nonNegative n.adjustments.2.account n.lastChange v) :
      Objects nonNegative l n v

/-- What is known of the ledger when an uncontended transfer has come to a stage. -/
def Stage.Foreseen (nonNegative : Bool) (l : Ledger) (n : NewTransfer) : Stage → Prop
  | .beginning | .recording => True
  | .debiting _ | .crediting _ _ | .adjustingFirst _ _ _ => l.Feasible n
  | .adjustingSecond _ _ _ _ => l.Feasible n ∧
      l.Grants nonNegative n.adjustments.1.account n.adjustments.1.delta
  | .committing _ => l.Feasible n ∧
      l.Grants nonNegative n.adjustments.1.account n.adjustments.1.delta ∧
      l.Grants nonNegative n.adjustments.2.account n.lastChange
  | .rollingBack cause => ∃ v, cause = .constraintViolation v ∧ l.Objects nonNegative n v

/-- What is known of the ledger when an uncontended transfer has ended. -/
def Outcome.Foreseen (nonNegative : Bool) (l : Ledger) (n : NewTransfer) : Outcome → Prop
  | .completed _ => l.Feasible n ∧
      l.Grants nonNegative n.adjustments.1.account n.adjustments.1.delta ∧
      l.Grants nonNegative n.adjustments.2.account n.lastChange
  | .failed e => ∃ v, e = .constraintViolation v ∧ l.Objects nonNegative n v
  | .overflowed => l.accounts.contains n.source = true ∧ l.accounts.contains n.target = true ∧
      n.amount = Amount.least

namespace Bank

variable {spent : Spent} {b₀ b b' : Bank} {o : Owner} {awaits : Owner → Option Int} {a delta : Int}
  {n : NewTransfer} {r : Run} {ds : List Deed} {row : Row}

/-! ## Adjusting a row that nobody else has locked -/

theorem adjust_eq (hr : b.accounts.get? a = some row) (delta : Int) : (b.adjust a delta).1 =
    if Amount.Allowed b.nonNegative (row.working.balance + delta) then
      .ok (row.working.plus delta)
    else .error (.constraintViolation (.ofBalance a (row.working.balance + delta))) := by
  rcases adjust_cases hr delta with ⟨hout, heq⟩ | ⟨hnn, hneg, heq⟩ | ⟨hin, hnn, heq⟩
  · rw [heq, if_neg fun h => hout h.1, Violation.ofBalance, if_neg hout]
  · have hin : Amount.InRange (row.working.balance + delta) := by
      by_contra hout
      unfold adjust at heq
      simp [hr, Amount.add?_eq_none_iff.2 hout] at heq
    have hnot : ¬ Amount.Allowed b.nonNegative (row.working.balance + delta) := fun h =>
      absurd (h.2 hnn) (by omega)
    rw [heq, if_neg hnot, Violation.ofBalance, if_pos hin]
  · rw [heq, if_pos ⟨hin, hnn⟩]
    rfl

/-- A row, if there is one, that nobody else than its owner has locked. -/
def Clear (b : Bank) (o : Owner) (a : Int) : Prop :=
  b.accounts.contains a = true → a ∈ b.heldBy o ∨ b.locks.get? a = none

theorem Clear.of_same (h : b.Clear o a) (hledger : b'.ledger = b.ledger)
    (hheld : b'.heldBy o = b.heldBy o) (hlocks : b'.locks = b.locks) : b'.Clear o a := by
  intro ha
  rw [← contains_ledger, hledger, contains_ledger] at ha
  rw [hheld, hlocks]
  exact h ha

/-- The row of an account, as a unit of work that has not asked for it in vain sees it. -/
theorem Reflects.working_eq (h : b.Reflects o ds) (hb : b.Sound awaits) (hclear : b.Clear o a)
    {x : Account} (hx : (b.ledger.enactAll ds).accounts.get? a = some x) :
    ∃ row, b.accounts.get? a = some row ∧ row.working = x := by
  have ha : b.accounts.contains a = true := by
    rw [← contains_ledger, ← Ledger.contains_enactAll h.admitted]
    exact Table.contains_iff.2 ⟨x, hx⟩
  obtain ⟨row, hrow⟩ := Table.contains_iff.1 ha
  refine ⟨row, hrow, ?_⟩
  by_cases hheld : a ∈ b.heldBy o
  · exact Option.some.inj ((h.working hheld hrow).symm.trans hx)
  · -- Nobody has locked the row, so no deed has adjusted it.
    have hlock := (hclear ha).resolve_left hheld
    have hfree : ∀ p, a ∉ b.heldBy p := by
      intro p hp
      obtain ⟨l, hl, -⟩ := hb.locking.held hp
      rw [hlock] at hl
      cases hl
    rw [Ledger.get?_enactAll_of_not_adjusted fun d hd e => hheld (h.adjusted hd e), get?_ledger,
      hrow] at hx
    exact (hb.settled.clean hrow hfree).trans (Option.some.inj hx)

/-- An adjustment finds the row locked by its unit of work, or locks it at once. -/
theorem Clear.addBalance (h : b.Clear o a) (ho : b.IsOpen o)
    (hrow : b.accounts.get? a = some row) (delta : Int) : ∃ c : Bank,
    b.addBalance o a delta = (some (c.adjust a delta).1, (c.adjust a delta).2) ∧
      c.accounts = b.accounts ∧ c.nonNegative = b.nonNegative ∧ a ∈ c.heldBy o ∧
      ∀ k, k ≠ a → c.locks.get? k = b.locks.get? k ∧ (k ∈ b.heldBy o → k ∈ c.heldBy o) := by
  unfold Bank.addBalance
  by_cases hheld : a ∈ b.heldBy o
  · rw [if_pos (Work.holds_iff.2 hheld)]
    exact ⟨b, rfl, rfl, rfl, hheld, fun k _ => ⟨rfl, id⟩⟩
  · have ha : b.accounts.contains a = true := Table.contains_iff.2 ⟨row, hrow⟩
    have hrow' : ({ b with locks := b.locks.insert a ⟨o, []⟩ } : Bank).accounts.get? a =
      some row := hrow
    have hheldBy :=
      heldBy_hold (o := o) (b := { b with locks := b.locks.insert a ⟨o, []⟩ }) ho hrow'
    rw [if_neg fun e => hheld (Work.holds_iff.1 e),
      acquire_of_free ((h ha).resolve_left hheld) ha]
    refine ⟨_, rfl, ?_, ?_, ?_, fun k hk => ⟨?_, fun hmem => ?_⟩⟩
    · rw [hold_eq hrow']
      rfl
    · rw [hold_eq hrow']
      rfl
    · rw [hheldBy, update_self]
      simp
    · rw [hold_eq hrow']
      show (b.locks.insert a ⟨o, []⟩).get? k = b.locks.get? k
      rw [Table.get?_insert, if_neg hk]
    · rw [hheldBy, update_self]
      exact List.mem_append_left _ hmem

/-- **Adding to a balance** is answered at once if nobody else has locked the row, and takes no
other lock. -/
theorem Reflects.addBalance_clear (h : b.Reflects o ds) (hb : b.Sound awaits) (ho : b.IsOpen o)
    (hclear : b.Clear o a) {x : Account}
    (hx : (b.ledger.enactAll ds).accounts.get? a = some x) (delta : Int) :
    (b.addBalance o a delta).1 = some
        (if Amount.Allowed b.nonNegative (x.balance + delta) then .ok (x.plus delta)
        else .error (.constraintViolation (.ofBalance a (x.balance + delta)))) ∧
      a ∈ (b.addBalance o a delta).2.heldBy o ∧
      ∀ k, k ≠ a → (b.addBalance o a delta).2.locks.get? k = b.locks.get? k ∧
        (k ∈ b.heldBy o → k ∈ (b.addBalance o a delta).2.heldBy o) := by
  obtain ⟨row, hrow, rfl⟩ := h.working_eq hb hclear hx
  obtain ⟨c, heq, haccounts, hnn, hheld, hsame⟩ := hclear.addBalance ho hrow delta
  rw [← haccounts] at hrow
  obtain ⟨accounts, hadjust, -⟩ := adjust_accounts c a delta
  rw [heq, adjust_eq hrow, hadjust, hnn]
  exact ⟨rfl, hheld, hsame⟩

/-- The row of an account stays clear when a balance is added to, of whichever account. -/
theorem Clear.of_addBalance {k : Int} (h : b.Clear o k) (hledger : b'.ledger = b.ledger)
    (hheld : a ∈ b'.heldBy o) (hsame : ∀ k, k ≠ a → b'.locks.get? k = b.locks.get? k ∧
      (k ∈ b.heldBy o → k ∈ b'.heldBy o)) : b'.Clear o k := by
  intro hk
  rw [← contains_ledger, hledger, contains_ledger] at hk
  by_cases hka : k = a
  · exact .inl (hka ▸ hheld)
  · obtain ⟨hlocks, hkept⟩ := hsame k hka
    rw [hlocks]
    exact (h hk).imp_left hkept

/-! ## The calls one by one -/

/-- **An uncontended transfer between two calls.** It waits for nothing, nobody else has locked the
row of either account, and how far it has come could be foretold. -/
structure Unhindered (b₀ : Bank) (awaits : Owner → Option Int) (o : Owner) (n : NewTransfer)
    (r : Run) (b : Bank) : Prop where
  faults : r.faults = []
  idle : b.Sound (update awaits o none)
  source : b.Clear o n.source
  target : b.Clear o n.target
  foreseen : r.stage.Foreseen b₀.nonNegative b₀.ledger n

/-- Where the next call of an uncontended transfer leads. -/
def Progresses (b₀ : Bank) (awaits : Owner → Option Int) (o : Owner) (n : NewTransfer) (r : Run)
    (b : Bank) : Prop :=
  Store.Leads (b₀.Unhindered awaits o n) (fun _ _ => False)
    (fun outcome _ => outcome.Foreseen b₀.nonNegative b₀.ledger n) r ((store o).perform r.call b)

section Calls

variable {faults : List Fault} {answered : List Call} {s : Stage}

/-- Something was staged, and the transfer goes on. -/
theorem Unhindered.staged (h : b₀.Unhindered awaits o n ⟨n, faults, s, answered⟩ b)
    (hs : b'.Sound (update awaits o none)) (hledger : b'.ledger = b.ledger)
    (hheld : b'.heldBy o = b.heldBy o) (hlocks : b'.locks = b.locks) {s' : Stage}
    {answered' : List Call} (hforeseen : s'.Foreseen b₀.nonNegative b₀.ledger n) :
    b₀.Unhindered awaits o n ⟨n, faults, s', answered'⟩ b' :=
  ⟨h.faults, hs, h.source.of_same hledger hheld hlocks, h.target.of_same hledger hheld hlocks,
    hforeseen⟩

theorem Unhindered.recording (h : b₀.Unhindered awaits o n ⟨n, faults, .recording, answered⟩ b)
    (hr : b₀.InFlight spent awaits o n ⟨n, faults, .recording, answered⟩ b) :
    b₀.Progresses awaits o n ⟨n, faults, .recording, answered⟩ b := by
  have ho : b.IsOpen o := hr.carries.isOpen.2 (by simp)
  obtain ⟨hs, hw, -⟩ := h.idle.createTransfer ho n
  have hheld := congrFun (heldBy_createTransfer ho n) o
  have hlocks := locks_createTransfer b o n
  have hcontains : ∀ k, b₀.ledger.accounts.contains k = b.accounts.contains k := fun k => by
    rw [← hr.within.ledger, contains_ledger]
  have hledger := hw.ledger
  unfold Progresses
  show Store.Leads _ _ _ ⟨n, faults, .recording, answered⟩
    (some (b.createTransfer o n).1, (b.createTransfer o n).2)
  generalize hx : b.createTransfer o n = x at hs hheld hlocks hledger ⊢
  rcases createTransfer_cases b o n with ⟨hsource, heq⟩ | ⟨hsource, htarget, heq⟩ |
    ⟨hsource, htarget, t, -, heq⟩ <;> rw [hx] at heq <;> subst heq
  · refine h.staged hs hledger hheld hlocks ⟨_, rfl, .source ?_⟩
    rw [hcontains]
    simpa using hsource
  · refine h.staged hs hledger hheld hlocks ⟨_, rfl, .target ?_ ?_⟩
    · rw [hcontains]
      exact hsource
    · rw [hcontains]
      simpa using htarget
  · rw [← hcontains] at hsource htarget
    unfold Store.Leads
    dsimp only [Stage.resume]
    cases hamount : Amount.negate? n.amount with
    | none => exact ⟨hsource, htarget, Amount.negate?_eq_none_iff.1 hamount⟩
    | some m =>
        have hne : n.amount ≠ Amount.least := fun e => by
          rw [Amount.negate?_eq_none_iff.2 e] at hamount
          cases hamount
        exact h.staged hs hledger hheld hlocks ⟨hsource, htarget, hne⟩

/-- An entry of an account that exists is always recorded. -/
theorem Unhindered.createEntry (h : b₀.Unhindered awaits o n ⟨n, faults, s, answered⟩ b)
    (ho : b.IsOpen o) {m : NewEntry} (hm : b.accounts.contains m.account = true)
    {f : Entry → Stage} {answered' : List Call}
    (hforeseen : ∀ e, (f e).Foreseen b₀.nonNegative b₀.ledger n) :
    ∃ e, (b.createEntry o m).1 = .ok e ∧
      b₀.Unhindered awaits o n ⟨n, faults, f e, answered'⟩ (b.createEntry o m).2 := by
  obtain ⟨hs, hw, -⟩ := h.idle.createEntry ho m
  have hheld := congrFun (heldBy_createEntry ho m) o
  have hnext : ∀ e, b₀.Unhindered awaits o n ⟨n, faults, f e, answered'⟩ (b.createEntry o m).2 :=
    fun e => h.staged hs hw.ledger hheld (locks_createEntry b o m) (hforeseen e)
  rcases createEntry_cases b o m with ⟨hmissing, -⟩ | ⟨-, e, -, heq⟩
  · exact absurd hm hmissing
  · exact ⟨e, by rw [heq], hnext e⟩

/-- An adjustment is answered at once, according to the new balance, and the transfer goes on. -/
theorem Unhindered.addBalance (h : b₀.Unhindered awaits o n ⟨n, faults, s, answered⟩ b)
    (hr : b₀.InFlight spent awaits o n ⟨n, faults, s, answered⟩ b) (ho : b.IsOpen o)
    (hds : s.deeds? n = some ds) (ha : a = n.source ∨ a = n.target) {x : Account}
    (hx : (b.ledger.enactAll ds).accounts.get? a = some x) (delta : Int) :
    (b.addBalance o a delta).1 = some
        (if Amount.Allowed b₀.nonNegative (x.balance + delta) then .ok (x.plus delta)
        else .error (.constraintViolation (.ofBalance a (x.balance + delta)))) ∧
      ∀ {s' answered'}, s'.Foreseen b₀.nonNegative b₀.ledger n →
        b₀.Unhindered awaits o n ⟨n, faults, s', answered'⟩ (b.addBalance o a delta).2 := by
  have hclear : b.Clear o a := by
    rcases ha with rfl | rfl
    · exact h.source
    · exact h.target
  obtain ⟨hanswer, hheld, hsame⟩ :=
    (hr.carries.reflects hds).addBalance_clear h.idle ho hclear hx delta
  obtain ⟨hw, -, hs⟩ := h.idle.addBalance ho (a := a) (.inl (update_self _ _ _)) delta
  have hanswered : ¬ (b.addBalance o a delta).1.isNone = true := by
    rw [hanswer]
    simp
  rw [if_neg hanswered, Function.update_idem] at hs
  rw [hr.within.nonNegative] at hanswer
  exact ⟨hanswer, fun hforeseen => ⟨h.faults, hs, h.source.of_addBalance hw.ledger hheld hsame,
    h.target.of_addBalance hw.ledger hheld hsame, hforeseen⟩⟩

variable {t : Transfer} {debit credit : Entry} {first : Account}

theorem Unhindered.adjustingFirst
    (h : b₀.Unhindered awaits o n ⟨n, faults, .adjustingFirst t debit credit, answered⟩ b)
    (hr : b₀.InFlight spent awaits o n ⟨n, faults, .adjustingFirst t debit credit, answered⟩ b) :
    b₀.Progresses awaits o n ⟨n, faults, .adjustingFirst t debit credit, answered⟩ b := by
  have ho : b.IsOpen o := hr.carries.isOpen.2 (by simp)
  have hfeasible : b₀.ledger.Feasible n := h.foreseen
  obtain ⟨x, hx⟩ := Table.contains_iff.1 (hfeasible.contains n.adjustments_account.1)
  -- Nothing has been adjusted so far.
  have hsame : (b.ledger.enactAll [.transfer t, .entry debit, .entry credit]).accounts.get?
      n.adjustments.1.account = some x := by
    rw [hr.within.ledger]
    exact hx
  obtain ⟨hanswer, hnext⟩ :=
    h.addBalance hr ho rfl n.adjustments_account.1 hsame n.adjustments.1.delta
  unfold Progresses
  show Store.Leads _ _ _ ⟨n, faults, .adjustingFirst t debit credit, answered⟩
    (b.addBalance o n.adjustments.1.account n.adjustments.1.delta)
  generalize b.addBalance o n.adjustments.1.account n.adjustments.1.delta = y at hanswer hnext ⊢
  obtain ⟨answer, b'⟩ := y
  obtain rfl : answer = some _ := hanswer
  by_cases hallowed : Amount.Allowed b₀.nonNegative (x.balance + n.adjustments.1.delta)
  · rw [if_pos hallowed]
    exact hnext ⟨hfeasible, x, hx, hallowed⟩
  · rw [if_neg hallowed]
    exact hnext ⟨_, rfl, .first hfeasible ⟨x, hx, hallowed, rfl⟩⟩

theorem Unhindered.adjustingSecond
    (h : b₀.Unhindered awaits o n ⟨n, faults, .adjustingSecond t debit credit first, answered⟩ b)
    (hr : b₀.InFlight spent awaits o n
      ⟨n, faults, .adjustingSecond t debit credit first, answered⟩ b) :
    b₀.Progresses awaits o n ⟨n, faults, .adjustingSecond t debit credit first, answered⟩ b := by
  have ho : b.IsOpen o := hr.carries.isOpen.2 (by simp)
  obtain ⟨hfeasible, hgranted⟩ := h.foreseen
  obtain ⟨x, hx⟩ := Table.contains_iff.1 (hfeasible.contains n.adjustments_account.2)
  -- The first adjustment counts if both are of one account.
  obtain ⟨y, hy, hbalance⟩ : ∃ y, (b.ledger.enactAll [.transfer t, .entry debit, .entry credit,
      .adjustment n.adjustments.1.account n.adjustments.1.delta first]).accounts.get?
        n.adjustments.2.account = some y ∧
          y.balance + n.adjustments.2.delta = x.balance + n.lastChange := by
    have hadmitted := (hr.carries.reflects rfl).admitted
    rw [Ledger.get?_enactAll hadmitted, hr.within.ledger, hx]
    refine ⟨_, rfl, ?_⟩
    simp only [List.map_cons, List.map_nil, List.sum_cons, List.sum_nil, Deed.change,
      n.adjustments_eq_iff, NewTransfer.lastChange]
    ring
  obtain ⟨hanswer, hnext⟩ :=
    h.addBalance hr ho rfl n.adjustments_account.2 hy n.adjustments.2.delta
  rw [hbalance] at hanswer
  unfold Progresses
  show Store.Leads _ _ _ ⟨n, faults, .adjustingSecond t debit credit first, answered⟩
    (b.addBalance o n.adjustments.2.account n.adjustments.2.delta)
  generalize b.addBalance o n.adjustments.2.account n.adjustments.2.delta = z at hanswer hnext ⊢
  obtain ⟨answer, b'⟩ := z
  obtain rfl : answer = some _ := hanswer
  by_cases hallowed : Amount.Allowed b₀.nonNegative (x.balance + n.lastChange)
  · rw [if_pos hallowed]
    exact hnext ⟨hfeasible, hgranted, x, hx, hallowed⟩
  · rw [if_neg hallowed]
    exact hnext ⟨_, rfl, .second hfeasible hgranted ⟨x, hx, hallowed, rfl⟩⟩

end Calls

/-- **Each call of an uncontended transfer** is answered at once, as could be foretold. -/
theorem Unhindered.progresses (h : b₀.Unhindered awaits o n r b)
    (hr : b₀.InFlight spent awaits o n r b) : b₀.Progresses awaits o n r b := by
  obtain ⟨request, faults, stage, answered⟩ := r
  obtain rfl : request = n := hr.request
  have hopen : stage ≠ .beginning → b.IsOpen o := hr.carries.isOpen.2
  have hexists : b₀.ledger.Feasible request → b.accounts.contains request.source = true ∧
      b.accounts.contains request.target = true := by
    intro hfeasible
    rw [← contains_ledger, ← contains_ledger, hr.within.ledger]
    exact ⟨hfeasible.source, hfeasible.target⟩
  cases stage with
  | beginning =>
      have hclosed : ¬ b.IsOpen o := fun ho => hr.carries.isOpen.1 ho rfl
      have hheld : (b.begin o).heldBy o = b.heldBy o := by
        unfold heldBy
        rw [work_begin]
      exact h.staged (h.idle.begin hclosed) rfl hheld rfl trivial
  | recording => exact h.recording hr
  | debiting t =>
      obtain ⟨e, he, hnext⟩ := h.createEntry (hopen (by simp))
        (m := ⟨request.source, -request.amount⟩)
        (hexists h.foreseen).1 (f := fun e => .crediting t e) fun _ => h.foreseen
      unfold Progresses
      show Store.Leads _ _ _ ⟨request, faults, .debiting t, answered⟩
        (some (b.createEntry o ⟨request.source, -request.amount⟩).1, _)
      rw [he]
      exact hnext
  | crediting t debit =>
      obtain ⟨e, he, hnext⟩ := h.createEntry (hopen (by simp))
        (m := ⟨request.target, request.amount⟩)
        (hexists h.foreseen).2 (f := fun e => .adjustingFirst t debit e) fun _ => h.foreseen
      unfold Progresses
      show Store.Leads _ _ _ ⟨request, faults, .crediting t debit, answered⟩
        (some (b.createEntry o ⟨request.target, request.amount⟩).1, _)
      rw [he]
      exact hnext
  | adjustingFirst t debit credit => exact h.adjustingFirst hr
  | adjustingSecond t debit credit first => exact h.adjustingSecond hr
  | committing receipt => exact h.foreseen
  | rollingBack cause => exact h.foreseen

/-- **An uncontended transfer ends** without a wait, and as could be foretold. Whatever else its
calls lead to holds where it ends. -/
theorem Unhindered.run {Q : Run → Bank → Prop} {E : Outcome → Bank → Prop}
    (h : b₀.Unhindered awaits o n r b) (hr : b₀.InFlight spent awaits o n r b) (hq : Q r b)
    (leads : ∀ {r b}, b₀.InFlight spent awaits o n r b → b₀.Unhindered awaits o n r b → Q r b →
      Store.Leads Q (fun _ _ => True) E r ((store o).perform r.call b)) : ∃ outcome made b',
      (store o).run r b = (.ended outcome made, b') ∧
        outcome.Foreseen b₀.nonNegative b₀.ledger n ∧ b₀.Ends spent awaits o n outcome b' ∧
        E outcome b' := by
  have hstep : ∀ r b, b₀.InFlight spent awaits o n r b ∧ b₀.Unhindered awaits o n r b ∧ Q r b →
      Store.Leads
        (fun r b => b₀.InFlight spent awaits o n r b ∧ b₀.Unhindered awaits o n r b ∧ Q r b)
        (fun r b => b₀.Waits spent awaits o n r b ∧ False ∧ True)
        (fun outcome b => b₀.Ends spent awaits o n outcome b ∧
          outcome.Foreseen b₀.nonNegative b₀.ledger n ∧ E outcome b) r ((store o).answer r b) := by
    rintro r b ⟨hr, h, hq⟩
    -- There are no faults, so every call is made.
    have hprogresses := h.progresses hr
    have hleads := leads hr h hq
    rcases (store o).answer_cases r b with ⟨e, hfault, -⟩ | ⟨-, heq⟩
    · rw [h.faults] at hfault
      cases hfault
    · unfold Progresses at hprogresses
      rw [← heq] at hprogresses hleads
      exact hr.leads.and (hprogresses.and hleads)
  have hrun := Store.run_satisfies hstep ⟨hr, h, hq⟩
  generalize (store o).run r b = x at hrun ⊢
  obtain ⟨r' | ⟨outcome, made⟩, b'⟩ := x
  · exact hrun.2.1.elim
  · exact ⟨outcome, made, b', rfl, hrun.2.1, hrun.1, hrun.2.2⟩

end Bank

end DoubleEntry
