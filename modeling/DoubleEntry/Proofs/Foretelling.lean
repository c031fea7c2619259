import DoubleEntry.Proofs.Settling
import DoubleEntry.Proofs.Undoing
set_option autoImplicit false

/-! # What an uncontended transfer leaves, row by row

A unit of work that nobody disturbs leaves, when it is committed, what its deeds say and nothing
else (`Bank.Reflects.commit_eq`). An uncontended transfer draws its numbers in a fixed order, so the
rows that it records are known to the last field (`Stage.Drawn`), and with them the whole bank that
it leaves (`Bank.Foretold`).
-/

namespace DoubleEntry

open Function (update update_self update_eq_self)

/-- A row with so much more on both of its versions. -/
def Row.plus (r : Row) (delta : Int) : Row :=
  { r with committed := r.committed.plus delta, working := r.working.plus delta }

theorem Row.plus_zero (r : Row) : r.plus 0 = r := by
  unfold plus
  rw [Account.plus_zero, Account.plus_zero]

theorem Row.plus_plus (r : Row) (x y : Int) : (r.plus x).plus y = r.plus (x + y) := by
  unfold plus
  rw [Account.plus_plus, Account.plus_plus]

/-! ## A commit after undisturbed work -/

namespace Bank

/-- The bank after deeds have taken effect at once. -/
def enactAll (b : Bank) (ds : List Deed) : Bank :=
  { b with
    accounts := b.accounts.collect fun a r => some (r.plus (ds.map (Deed.change a)).sum)
    transfers := (ds.filterMap Deed.transfer?).foldl (fun t x => t.insert x.id x) b.transfers
    entries := (ds.filterMap Deed.entry?).foldl (fun t x => t.insert x.id x) b.entries }

variable {b₀ b : Bank} {awaits : Owner → Option Int} {o : Owner} {ds : List Deed}

/-- Deeds add nothing to the balance of an account that they do not adjust. -/
theorem Reflects.sum_change (h : b.Reflects o ds) {a : Int} (ha : a ∉ b.heldBy o) :
    (ds.map (Deed.change a)).sum = 0 := by
  refine List.sum_eq_zero fun x hx => ?_
  obtain ⟨d, hd, rfl⟩ := List.mem_map.1 hx
  cases d with
  | adjustment k delta answer =>
      have hne : k ≠ a := by
        rintro rfl
        exact ha (h.adjusted hd rfl)
      exact if_neg hne
  | _ => rfl

/-- A locked row as its unit of work publishes it, compared with the row that a rollback leaves. -/
theorem Reflects.published_row (h : b.Reflects o ds) (hb : b.Sound awaits) {a : Int} {r : Row}
    (hr : b.accounts.get? a = some r) (pins : Nat) :
    (⟨if a ∈ b.heldBy o then r.working else r.committed, r.working, pins⟩ : Row) =
      (⟨r.committed, Hold.restored (b.work o).held a r.working, pins⟩ : Row).plus
        (ds.map (Deed.change a)).sum := by
  by_cases ha : a ∈ b.heldBy o
  · have hworking := h.working ha hr
    rw [Ledger.get?_enactAll h.admitted, get?_ledger, hr] at hworking
    replace hworking : r.committed.plus (ds.map (Deed.change a)).sum = r.working :=
      Option.some.inj hworking
    rw [if_pos ha, hb.settled.restored_eq (hb.locking.once o) hr ha]
    unfold Row.plus
    rw [hworking]
  · rw [if_neg ha, h.sum_change ha, Settled.restored_of_not_mem _ ha, Row.plus_zero]

/-- **A commit after undisturbed work** adds what the unit of work has done to the bank in which it
was opened, and changes nothing else. -/
theorem Reflects.commit_eq (h : b.Reflects o ds) (hw : b₀.Worked awaits o b) (h₀ : b₀.Sound awaits)
    (ho : ¬ b₀.IsOpen o) (ha : awaits o = none) :
    b.commit o = (b₀.enactAll ds).withNumbersOf b := by
  have hn := hw.sound.locking.once o
  -- A rollback leaves the bank of before, and a commit gives back the same locks and pins.
  have hback := hw.rollback h₀ ho ha
  rw [rollback_eq hn] at hback
  have haccounts := congrArg Bank.accounts hback
  have hlocks := congrArg Bank.locks hback
  have hworks := congrArg Bank.works hback
  have hcollect : (b.accounts.collect fun a r => some
      { committed := if a ∈ b.heldBy o then r.working else r.committed
        working := r.working
        pins := r.pins - (b.work o).pinned.count a }) =
      b₀.accounts.collect fun a r => some (r.plus (ds.map (Deed.change a)).sum) := by
    apply Table.ext
    intro a
    have hrow := congrArg (fun t => t.get? a) haccounts
    dsimp only [withNumbersOf] at hrow
    rw [Table.get?_collect, Table.get?_collect, ← hrow, Table.get?_collect]
    cases hr : b.accounts.get? a with
    | none => rfl
    | some r => exact congrArg some (h.published_row hw.sound hr _)
  rw [Bank.commit_eq hw.isOpen hn]
  dsimp only [withNumbersOf] at hlocks hworks
  rw [hcollect, hlocks, hworks, h.transfers, h.entries, hw.within.transfers, hw.within.entries,
    hw.within.nonNegative, hw.within.clock, hw.within.nextAccount]
  rfl

end Bank

/-! ## The numbers that a transfer draws -/

namespace Bank

/-- The transfer that is recorded next. -/
def newTransfer (b : Bank) (n : NewTransfer) : Transfer :=
  ⟨b.nextTransfer, n.source, n.target, n.amount, b.clock⟩

/-- The debit of a transfer that is recorded next. -/
def newDebit (b : Bank) (n : NewTransfer) : Entry := ⟨b.nextEntry, n.source, -n.amount, b.clock⟩

/-- The credit of a transfer that is recorded next. -/
def newCredit (b : Bank) (n : NewTransfer) : Entry :=
  ⟨b.nextEntry + 1, n.target, n.amount, b.clock⟩

/-- From one bank to another so many numbers of transfers and of entries were drawn. -/
structure Drew (b₀ : Bank) (transfers entries : Nat) (b : Bank) : Prop where
  transfers : b.nextTransfer = b₀.nextTransfer + transfers
  entries : b.nextEntry = b₀.nextEntry + entries

end Bank

namespace Ledger

/-- How many numbers of transfers an uncontended transfer draws: none if an account is missing. -/
def transfersDrawn (l : Ledger) (n : NewTransfer) : Nat :=
  if l.accounts.contains n.source ∧ l.accounts.contains n.target then 1 else 0

/-- How many numbers of entries an uncontended transfer draws: a debit has to be recorded. -/
def entriesDrawn (l : Ledger) (n : NewTransfer) : Nat :=
  if l.accounts.contains n.source ∧ l.accounts.contains n.target ∧ n.amount ≠ Amount.least then 2
  else 0

end Ledger

/-- The rows that a transfer has recorded up to a stage, and the numbers that it has drawn. -/
def Stage.Drawn (b₀ : Bank) (n : NewTransfer) (b : Bank) : Stage → Prop
  | .beginning | .recording => b₀.Drew 0 0 b
  | .debiting t => t = b₀.newTransfer n ∧ b₀.Drew 1 0 b
  | .crediting t debit => t = b₀.newTransfer n ∧ debit = b₀.newDebit n ∧ b₀.Drew 1 1 b
  | .adjustingFirst t debit credit | .adjustingSecond t debit credit _ =>
      t = b₀.newTransfer n ∧ debit = b₀.newDebit n ∧ credit = b₀.newCredit n ∧ b₀.Drew 1 2 b
  | .committing r => r.transfer = b₀.newTransfer n ∧ r.debit = b₀.newDebit n ∧
      r.credit = b₀.newCredit n ∧ b₀.Drew 1 2 b
  | .rollingBack _ => b₀.Drew (b₀.ledger.transfersDrawn n) (b₀.ledger.entriesDrawn n) b

/-- The rows that a transfer has recorded when it has ended, and the numbers that it has drawn. -/
def Outcome.Drawn (b₀ : Bank) (n : NewTransfer) (b : Bank) : Outcome → Prop
  | .completed r => r.transfer = b₀.newTransfer n ∧ r.debit = b₀.newDebit n ∧
      r.credit = b₀.newCredit n ∧ b₀.Drew 1 2 b
  | .failed _ | .overflowed =>
      b₀.Drew (b₀.ledger.transfersDrawn n) (b₀.ledger.entriesDrawn n) b

namespace Bank

variable {spent : Spent} {b₀ b b' : Bank} {awaits : Owner → Option Int} {o : Owner}
  {n : NewTransfer} {r : Run} {p q : Nat}

/-- Whatever leaves the next numbers alone draws none. -/
theorem Drew.of_same (h : b₀.Drew p q b) (ht : b'.nextTransfer = b.nextTransfer)
    (he : b'.nextEntry = b.nextEntry) : b₀.Drew p q b' :=
  ⟨ht.trans h.transfers, he.trans h.entries⟩

/-- Adding to a balance draws no number. -/
theorem Sound.numbers_addBalance (hb : b.Sound awaits) (ho : b.IsOpen o) (ha : awaits o = none)
    (a delta : Int) : (b.addBalance o a delta).2.nextTransfer = b.nextTransfer ∧
      (b.addBalance o a delta).2.nextEntry = b.nextEntry := by
  rcases hb.addBalance_cases ho (a := a) (.inl ha) delta with ⟨locks, heq, -⟩ | ⟨locks, heq, -⟩ |
    ⟨c, heq, -, -, -, -, hcase⟩
  · rw [heq]
    exact ⟨rfl, rfl⟩
  · rw [heq]
    exact ⟨rfl, rfl⟩
  · obtain ⟨accounts, hadjust, -⟩ := adjust_accounts c a delta
    rw [heq]
    dsimp only
    rw [hadjust]
    rcases hcase with rfl | ⟨-, row, hrow, -, locks, rfl⟩
    · exact ⟨rfl, rfl⟩
    · rw [hold_eq (b := { b with locks }) hrow]
      exact ⟨rfl, rfl⟩

theorem numbers_rollback (hb : b.Sound awaits) (o : Owner) :
    (b.rollback o).nextTransfer = b.nextTransfer ∧ (b.rollback o).nextEntry = b.nextEntry := by
  rw [rollback_eq (hb.locking.once o)]
  exact ⟨rfl, rfl⟩

theorem numbers_commit (hb : b.Sound awaits) (ho : b.IsOpen o) :
    (b.commit o).nextTransfer = b.nextTransfer ∧ (b.commit o).nextEntry = b.nextEntry := by
  rw [Bank.commit_eq ho (hb.locking.once o)]
  exact ⟨rfl, rfl⟩

/-- Where the next call of an uncontended transfer leads, as far as numbers are concerned. -/
def Counts (b₀ : Bank) (o : Owner) (n : NewTransfer) (r : Run) (b : Bank) : Prop :=
  Store.Leads (fun r b => r.stage.Drawn b₀ n b) (fun _ _ => True)
    (fun outcome b => outcome.Drawn b₀ n b) r ((store o).perform r.call b)

section Calls

variable {faults : List Fault} {answered : List Call} {s : Stage}

/-- A transfer whose accounts exist draws a number for the transfer. -/
theorem transfersDrawn_eq_one {l : Ledger} (hs : l.accounts.contains n.source = true)
    (ht : l.accounts.contains n.target = true) : l.transfersDrawn n = 1 := if_pos ⟨hs, ht⟩

/-- A transfer that lacks an account draws no number. -/
theorem drawn_eq_zero {l : Ledger}
    (hnone : ¬ (l.accounts.contains n.source = true ∧ l.accounts.contains n.target = true)) :
    l.transfersDrawn n = 0 ∧ l.entriesDrawn n = 0 :=
  ⟨if_neg hnone, if_neg fun h => hnone ⟨h.1, h.2.1⟩⟩

theorem drawn_of_feasible {l : Ledger} (h : l.Feasible n) :
    l.transfersDrawn n = 1 ∧ l.entriesDrawn n = 2 :=
  ⟨if_pos ⟨h.source, h.target⟩, if_pos ⟨h.source, h.target, h.amount⟩⟩

theorem Unhindered.counts_recording
    (hr : b₀.InFlight spent awaits o n ⟨n, faults, .recording, answered⟩ b)
    (hd : Stage.Drawn b₀ n b .recording) :
    b₀.Counts o n ⟨n, faults, .recording, answered⟩ b := by
  have hcontains : ∀ k, b₀.ledger.accounts.contains k = b.accounts.contains k := fun k => by
    rw [← hr.within.ledger, contains_ledger]
  have hmissing : ∀ b' : Bank, b'.nextTransfer = b.nextTransfer → b'.nextEntry = b.nextEntry →
      ¬ (b.accounts.contains n.source = true ∧ b.accounts.contains n.target = true) →
      b₀.Drew (b₀.ledger.transfersDrawn n) (b₀.ledger.entriesDrawn n) b' := by
    intro b' ht he hnone
    rw [← hcontains, ← hcontains] at hnone
    obtain ⟨hp, hq⟩ := drawn_eq_zero hnone
    rw [hp, hq]
    exact hd.of_same ht he
  unfold Counts
  show Store.Leads _ _ _ ⟨n, faults, .recording, answered⟩
    (some (b.createTransfer o n).1, (b.createTransfer o n).2)
  rcases createTransfer_cases b o n with ⟨hsource, heq⟩ | ⟨hsource, htarget, heq⟩ |
    ⟨hsource, htarget, t, ht, heq⟩ <;> rw [heq]
  · exact hmissing b rfl rfl fun h => hsource h.1
  · exact hmissing (b.addPin o n.source) rfl rfl fun h => htarget h.2
  · have hdrew : b₀.Drew 1 0 (((b.addPin o n.source).addPin o n.target).stageTransfer o t) :=
      ⟨congrArg (· + 1) (hd.transfers.trans (Int.add_zero _)), hd.entries⟩
    have hrow : t = b₀.newTransfer n := by
      rw [ht, hd.transfers, hr.within.clock]
      exact congrArg (fun k => (⟨k, _, _, _, _⟩ : Transfer)) (Int.add_zero _)
    rw [← hcontains] at hsource htarget
    unfold Store.Leads
    dsimp only [Stage.resume]
    cases hamount : Amount.negate? n.amount with
    | none =>
        have hleast := Amount.negate?_eq_none_iff.1 hamount
        have hentries : b₀.ledger.entriesDrawn n = 0 := if_neg fun h => h.2.2 hleast
        show b₀.Drew (b₀.ledger.transfersDrawn n) (b₀.ledger.entriesDrawn n) _
        rw [transfersDrawn_eq_one hsource htarget, hentries]
        exact hdrew
    | some m => exact ⟨hrow, hdrew⟩

/-- An entry of an account that exists draws one number. -/
theorem Drew.createEntry (hd : b₀.Drew p q b) (hclock : b.clock = b₀.clock) {m : NewEntry}
    (hm : b.accounts.contains m.account = true) :
    (b.createEntry o m).1 = .ok ⟨b₀.nextEntry + q, m.account, m.amount, b₀.clock⟩ ∧
      b₀.Drew p (q + 1) (b.createEntry o m).2 := by
  rcases createEntry_cases b o m with ⟨hnone, -⟩ | ⟨-, e, he, heq⟩
  · exact absurd hm hnone
  · rw [heq, he, hd.entries, hclock]
    refine ⟨rfl, hd.transfers, ?_⟩
    show b.nextEntry + 1 = _
    rw [hd.entries, Nat.cast_add, add_assoc]
    rfl

/-- Whatever an adjustment answers, a transfer that has made its entries draws nothing more. -/
theorem Unhindered.counts_addBalance (h : b₀.Unhindered awaits o n ⟨n, faults, s, answered⟩ b)
    (ho : b.IsOpen o) (hfeasible : b₀.ledger.Feasible n) (hd : b₀.Drew 1 2 b) (a delta : Int) :
    b₀.Drew 1 2 (b.addBalance o a delta).2 ∧
      b₀.Drew (b₀.ledger.transfersDrawn n) (b₀.ledger.entriesDrawn n)
        (b.addBalance o a delta).2 := by
  obtain ⟨ht, he⟩ := h.idle.numbers_addBalance ho (update_self _ _ _) a delta
  obtain ⟨hp, hq⟩ := drawn_of_feasible hfeasible
  have hdrew := hd.of_same ht he
  exact ⟨hdrew, by rwa [hp, hq]⟩

end Calls

/-- **Each call of an uncontended transfer draws what its stage says.** -/
theorem Unhindered.counts (h : b₀.Unhindered awaits o n r b) (hr : b₀.InFlight spent awaits o n r b)
    (hd : r.stage.Drawn b₀ n b) : b₀.Counts o n r b := by
  obtain ⟨request, faults, stage, answered⟩ := r
  obtain rfl : request = n := hr.request
  have hopen : stage ≠ .beginning → b.IsOpen o := hr.carries.isOpen.2
  have hclock : b.clock = b₀.clock := hr.within.clock
  have hexists : ∀ k, b₀.ledger.accounts.contains k = true → b.accounts.contains k = true := by
    intro k hk
    rwa [← contains_ledger, hr.within.ledger]
  cases stage with
  | beginning => exact hd.of_same rfl rfl
  | recording => exact counts_recording hr hd
  | debiting t =>
      obtain ⟨ht, hdrew⟩ := hd
      obtain ⟨hanswer, hnext⟩ := hdrew.createEntry hclock (o := o)
        (m := ⟨request.source, -request.amount⟩) (hexists _ h.foreseen.source)
      unfold Counts
      show Store.Leads _ _ _ ⟨request, faults, .debiting t, answered⟩
        (some (b.createEntry o ⟨request.source, -request.amount⟩).1, _)
      rw [hanswer]
      refine ⟨ht, ?_, hnext⟩
      exact congrArg (fun k => (⟨k, _, _, _⟩ : Entry)) (Int.add_zero _)
  | crediting t debit =>
      obtain ⟨ht, hdebit, hdrew⟩ := hd
      obtain ⟨hanswer, hnext⟩ := hdrew.createEntry hclock (o := o)
        (m := ⟨request.target, request.amount⟩) (hexists _ h.foreseen.target)
      unfold Counts
      show Store.Leads _ _ _ ⟨request, faults, .crediting t debit, answered⟩
        (some (b.createEntry o ⟨request.target, request.amount⟩).1, _)
      rw [hanswer]
      exact ⟨ht, hdebit, rfl, hnext⟩
  | adjustingFirst t debit credit =>
      obtain ⟨ht, hdebit, hcredit, hdrew⟩ := hd
      obtain ⟨hnext, hfails⟩ := h.counts_addBalance (hopen (by simp)) h.foreseen hdrew
        request.adjustments.1.account request.adjustments.1.delta
      unfold Counts
      show Store.Leads _ _ _ ⟨request, faults, .adjustingFirst t debit credit, answered⟩
        (b.addBalance o request.adjustments.1.account request.adjustments.1.delta)
      generalize b.addBalance o request.adjustments.1.account request.adjustments.1.delta = x
        at hnext hfails ⊢
      obtain ⟨_ | _ | first, b'⟩ := x
      · trivial
      · exact hfails
      · exact ⟨ht, hdebit, hcredit, hnext⟩
  | adjustingSecond t debit credit first =>
      obtain ⟨ht, hdebit, hcredit, hdrew⟩ := hd
      obtain ⟨hnext, hfails⟩ := h.counts_addBalance (hopen (by simp)) h.foreseen.1 hdrew
        request.adjustments.2.account request.adjustments.2.delta
      unfold Counts
      show Store.Leads _ _ _ ⟨request, faults, .adjustingSecond t debit credit first, answered⟩
        (b.addBalance o request.adjustments.2.account request.adjustments.2.delta)
      generalize b.addBalance o request.adjustments.2.account request.adjustments.2.delta = x
        at hnext hfails ⊢
      obtain ⟨_ | _ | second, b'⟩ := x
      · trivial
      · exact hfails
      · show (Stage.committing (Stage.receipt request t debit credit first second)).Drawn
          b₀ request b'
        unfold Stage.receipt
        cases request.adjustments.1.side <;> exact ⟨ht, hdebit, hcredit, hnext⟩
  | committing receipt =>
      obtain ⟨ht, hdebit, hcredit, hdrew⟩ := hd
      obtain ⟨hnt, hne⟩ := numbers_commit h.idle (hopen (by simp))
      exact ⟨ht, hdebit, hcredit, hdrew.of_same hnt hne⟩
  | rollingBack cause =>
      obtain ⟨hnt, hne⟩ := numbers_rollback h.idle o
      obtain ⟨v, rfl, -⟩ := h.foreseen
      exact hd.of_same hnt hne

end Bank

/-! ## The bank that a transfer leaves -/

/-- What a transfer has done when it has ended: all that it is about, or nothing. -/
def Outcome.deeds (n : NewTransfer) : Outcome → List Deed
  | .completed r => r.deeds n
  | .failed _ | .overflowed => []

namespace Bank

/-- The bank after so many numbers of transfers and of entries were drawn. -/
def draw (b : Bank) (transfers entries : Nat) : Bank :=
  { b with nextTransfer := b.nextTransfer + transfers, nextEntry := b.nextEntry + entries }

variable {spent : Spent} {b₀ b : Bank} {awaits : Owner → Option Int} {o : Owner}
  {n : NewTransfer} {outcome : Outcome} {number : Nat}

theorem enactAll_nil (b : Bank) : b.enactAll [] = b := by
  have haccounts : (b.accounts.collect fun a r =>
      some (r.plus (([] : List Deed).map (Deed.change a)).sum)) = b.accounts :=
    Table.collect_eq_self fun {_ r} _ => congrArg some r.plus_zero
  unfold enactAll
  rw [haccounts]
  rfl

theorem Drew.withNumbersOf {p q : Nat} (h : b₀.Drew p q b) (ds : List Deed) :
    (b₀.enactAll ds).withNumbersOf b = (b₀.enactAll ds).draw p q := by
  unfold Bank.withNumbersOf draw
  rw [h.transfers, h.entries]
  rfl

/-- **What a transfer leaves that nobody disturbed:** its deeds, if it was carried out, and the
numbers that it has drawn. -/
theorem Concluded.eq (h : b₀.Concluded spent awaits o n b outcome) (h₀ : b₀.Sound awaits)
    (ho : ¬ b₀.IsOpen o) (ha : awaits o = none) (hb : b.Sound awaits) (hclosed : ¬ b.IsOpen o) :
    b = (b₀.enactAll (outcome.deeds n)).withNumbersOf b := by
  have hidle : update awaits o none = awaits := by rw [← ha, update_eq_self]
  have discarded : b₀.Within o b → b = (b₀.enactAll []).withNumbersOf b := by
    intro hw
    have hback := hw.eq_without hb hclosed ha
    rw [h₀.without_eq ho ha] at hback
    rw [enactAll_nil]
    exact hback
  cases outcome with
  | completed r =>
      obtain ⟨-, b₁, hw, -, hs₁, ho₁, hdeeds, rfl⟩ := h
      rw [hidle] at hs₁
      obtain ⟨hnt, hne⟩ := numbers_commit hs₁ ho₁
      have hcommit := hdeeds.commit_eq ⟨hs₁, hw, ho₁⟩ h₀ ho ha
      unfold Bank.withNumbersOf
      rw [hnt, hne]
      exact hcommit
  | failed e => exact discarded h
  | overflowed => exact discarded h

/-- **What an uncontended transfer comes to, to the last field.** -/
structure Foretold (b : Bank) (n : NewTransfer) (outcome : Outcome) (b' : Bank) : Prop where
  foreseen : outcome.Foreseen b.nonNegative b.ledger n
  /-- The rows of a receipt have the next numbers. -/
  rows : ∀ {r}, outcome = .completed r →
    r.transfer = b.newTransfer n ∧ r.debit = b.newDebit n ∧ r.credit = b.newCredit n
  admitted : b.ledger.AdmitsAll b.nonNegative (outcome.deeds n)
  bank : b' = (b.enactAll (outcome.deeds n)).draw (b.ledger.transfersDrawn n)
    (b.ledger.entriesDrawn n)

/-- **A transfer that finds the rows of its accounts unlocked** leaves what can be foretold. -/
theorem Sound.foretold (hb : b.Sound awaits) (hfresh : b.Fresh spent)
    (hclosed : ¬ b.IsOpen (.call number)) (ha : awaits (.call number) = none)
    (hsource : b.Unlocked n.source) (htarget : b.Unlocked n.target) : ∃ outcome made b',
      (Request.transfer { request := n }).proceed number b =
        (some (.transfer outcome made), .transfer { request := n }, b') ∧
      b.Foretold n outcome b' ∧ b'.Sound awaits ∧ b'.Fresh spent := by
  have hidle : update awaits (.call number) none = awaits := by rw [← ha, update_eq_self]
  have hstart : Stage.Drawn b n b .beginning := ⟨(Int.add_zero _).symm, (Int.add_zero _).symm⟩
  obtain ⟨outcome, made, b', heq, hforeseen, hends, hdrawn⟩ :=
    (Unhindered.start hb ha hsource htarget).run (.start hb hfresh hclosed ha n [])
      (Q := fun r b' => r.stage.Drawn b n b') (E := fun outcome b' => outcome.Drawn b n b')
      hstart fun hr h hd => h.counts hr hd
  have hsound := hends.sound
  rw [hidle] at hsound
  have hback := hsound.rollback ha
  have hconcluded := hends.dropped
  -- What is left of the unit of work is dropped, which draws no number.
  obtain ⟨hnt, hne⟩ := numbers_rollback hsound (.call number)
  have heqn := hconcluded.eq hb hclosed ha hback (not_isOpen_rollback hsound)
  refine ⟨outcome, made, b'.rollback (.call number), ?_, ⟨hforeseen, ?_, ?_, ?_⟩, hback,
    hends.fresh.rollback (hsound.locking.once _)⟩
  · unfold Request.proceed
    dsimp only
    rw [heq]
  · rintro r rfl
    exact ⟨hdrawn.1, hdrawn.2.1, hdrawn.2.2.1⟩
  · cases outcome with
    | completed r =>
        obtain ⟨-, b₁, hw, -, -, -, hdeeds, -⟩ := hconcluded
        have hadmitted := hdeeds.admitted
        rwa [hw.ledger, hw.nonNegative] at hadmitted
    | failed e => trivial
    | overflowed => trivial
  · have hdrew : b.Drew (b.ledger.transfersDrawn n) (b.ledger.entriesDrawn n) b' := by
      cases outcome with
      | completed r =>
          obtain ⟨hp, hq⟩ := drawn_of_feasible hforeseen.1
          rw [hp, hq]
          exact hdrawn.2.2.2
      | failed e => exact hdrawn
      | overflowed => exact hdrawn
    rw [heqn, ← (hdrew.of_same hnt hne).withNumbersOf]

end Bank

end DoubleEntry
