import DoubleEntry.Proofs.Proceeding
set_option autoImplicit false

/-! # Doing it all again

Effects are replayed on a bank with nothing else going on: each operation is done again, at the time
and under the number that it had, and has to succeed with the answer that it gave (`Bank.replay`).
Effects that a ledger allows can be replayed, and make of the bank's ledger what they make of the
ledger (`Bank.Quiet.replay`).
-/

namespace DoubleEntry.Bank

open Function (update update_self update_of_ne)

/-- Does a deed again in the unit of work of an owner. -/
def redo (o : Owner) (b : Bank) : Deed → Option Bank
  | .transfer t =>
      let b := { b with clock := t.createdAt, nextTransfer := t.id }
      match b.createTransfer o ⟨t.source, t.target, t.amount⟩ with
      | (.ok answer, b) => if answer = t then some b else none
      | (.error _, _) => none
  | .entry e =>
      let b := { b with clock := e.createdAt, nextEntry := e.id }
      match b.createEntry o ⟨e.account, e.amount⟩ with
      | (.ok answer, b) => if answer = e then some b else none
      | (.error _, _) => none
  | .adjustment account delta answer =>
      match b.addBalance o account delta with
      | (some (.ok a), b) => if a = answer then some b else none
      | _ => none

/-- Makes an effect take place again. The deeds of a unit of work are done one after the other and
then committed. -/
def replayOne (o : Owner) (b : Bank) : Effect → Option Bank
  | .opened n answer =>
      let b := { b with clock := answer.createdAt, nextAccount := answer.id }
      match b.createAccount n with
      | (.ok a, b) => if a = answer then some b else none
      | (.error _, _) => none
  | .updated account balance answer =>
      match b.updateAccount o account balance with
      | (some (.ok (some a)), b) => if a = answer then some b else none
      | _ => none
  | .deleted account =>
      match b.deleteAccount o account with
      | (some (.ok true), b) => some b
      | _ => none
  | .committed ds => (ds.foldlM (redo o) (b.begin o)).map fun b => b.commit o

/-- **Replays effects one after the other.** There is a result only if every operation succeeds with
the answer that it gave the first time. -/
def replay (o : Owner) (b : Bank) (es : List Effect) : Option Bank := es.foldlM (replayOne o) b

variable {b b' : Bank} {o p : Owner} {ds es' : List Deed} {d : Deed} {a delta : Int}
  {e : Effect} {es : List Effect} {awaits : Owner → Option Int}

/-! ## One unit of work, and nobody else -/

/-- A bank at which one owner works and nobody else. -/
structure Alone (b : Bank) (o : Owner) : Prop where
  sound : b.Sound fun _ => none
  isOpen : b.IsOpen o
  others : ∀ {p}, p ≠ o → b.work? p = none

theorem Alone.heldBy (h : b.Alone o) (hp : p ≠ o) : b.heldBy p = [] := by
  unfold Bank.heldBy Bank.work
  rw [h.others hp]
  rfl

theorem update_none (o : Owner) :
    update (fun _ : Owner => (none : Option Int)) o none = fun _ => none :=
  Function.update_eq_self _ _

theorem Alone.of_within (h : b.Alone o) (hw : b.Within o b') (hs : b'.Sound fun _ => none)
    (ho : b'.IsOpen o) : b'.Alone o :=
  ⟨hs, ho, fun hp => (hw.work? hp).trans (h.others hp)⟩

/-- Who waits, waits for a row that somebody else has locked. -/
theorem Sound.busy {locks : Table Lock}
    (h : ({ b with locks } : Bank).Sound (update (fun _ => none) o (some a))) {l : Lock}
    (hl : locks.get? a = some l) (hw : o ∈ l.waiting) : ∃ p, p ≠ o ∧ a ∈ b.heldBy p := by
  have hne : l.holder ≠ o := fun e => (h.locking.queue hl).1 (e ▸ hw)
  refine ⟨l.holder, hne, (h.locking.holder hl).resolve_right ?_⟩
  rw [update_of_ne hne]
  simp

/-- An adjustment that is admitted succeeds with the answer that it has. -/
theorem Reflects.adjust_of_admits (h : b.Reflects o ds) (hb : b.Sound awaits)
    (ha : a ∈ b.heldBy o) {answer : Account}
    (hd : (b.ledger.enactAll ds).Admits b.nonNegative (.adjustment a delta answer)) :
    (b.adjust a delta).1 = .ok answer := by
  obtain ⟨g, hg, rfl⟩ := List.mem_map.1 ha
  obtain ⟨r, hr, -⟩ := hb.settled.prior hg
  obtain ⟨account, haccount, rfl, hin, hnn⟩ := hd
  obtain rfl := Option.some.inj ((h.working ha hr).symm.trans haccount)
  -- The working copy is the account that the ledger admits, so neither check can fail.
  rcases adjust_cases hr delta with ⟨hout, -⟩ | ⟨hb, hneg, -⟩ | ⟨-, -, heq⟩
  · exact absurd hin hout
  · exact absurd (hnn hb) (Int.not_le.2 hneg)
  · rw [heq]

/-- The bank at the time at which a transfer was recorded, with the number that it got next. -/
def beforeTransfer (b : Bank) (t : Transfer) : Bank :=
  { b with clock := t.createdAt, nextTransfer := t.id }

/-- The bank at the time at which an entry was recorded, with the number that it got next. -/
def beforeEntry (b : Bank) (e : Entry) : Bank :=
  { b with clock := e.createdAt, nextEntry := e.id }

/-- The bank at the time at which an account was opened, with the number that it got next. -/
def beforeOpening (b : Bank) (answer : Account) : Bank :=
  { b with clock := answer.createdAt, nextAccount := answer.id }

/-- Some deeds were done again in the only unit of work of a bank. -/
structure Redone (b : Bank) (o : Owner) (ds : List Deed) (b' : Bank) : Prop where
  alone : b'.Alone o
  reflects : b'.Reflects o ds
  ledger : b'.ledger = b.ledger
  nonNegative : b'.nonNegative = b.nonNegative

theorem redo_transfer_eq {t : Transfer}
    (h : (b.beforeTransfer t).createTransfer o ⟨t.source, t.target, t.amount⟩ = (.ok t, b')) :
    b.redo o (.transfer t) = some b' := by
  unfold beforeTransfer at h
  unfold redo
  dsimp only
  rw [h]
  exact if_pos rfl

theorem Reflects.redo_transfer (h : b.Reflects o ds) (hb : b.Alone o) {t : Transfer}
    (hs : b.accounts.contains t.source = true) (ht : b.accounts.contains t.target = true) :
    ∃ b', b.redo o (.transfer t) = some b' ∧ b.Redone o (ds ++ [.transfer t]) b' := by
  have hc : (b.beforeTransfer t).Alone o :=
    ⟨hb.sound.with_numbers _ _ _ _, hb.isOpen, hb.others⟩
  have hreflects : (b.beforeTransfer t).Reflects o ds := h.with_numbers _ _ _ _
  obtain ⟨b', heq⟩ : ∃ b',
      (b.beforeTransfer t).createTransfer o ⟨t.source, t.target, t.amount⟩ = (.ok t, b') := by
    rcases (b.beforeTransfer t).createTransfer_cases o ⟨t.source, t.target, t.amount⟩ with
      ⟨hn, -⟩ | ⟨-, hn, -⟩ | ⟨-, -, u, rfl, heq⟩
    · exact absurd hs hn
    · exact absurd ht hn
    · exact ⟨_, heq⟩
  obtain ⟨hsound, hw, hopen⟩ := hc.sound.createTransfer hc.isOpen ⟨t.source, t.target, t.amount⟩
  have hdeeds := hreflects.createTransfer hc.sound hc.isOpen ⟨t.source, t.target, t.amount⟩
  rw [heq] at hsound hw hopen hdeeds
  exact ⟨b', redo_transfer_eq heq, hc.of_within hw hsound hopen, hdeeds, hw.ledger,
    hw.nonNegative⟩

theorem redo_entry_eq {e : Entry}
    (h : (b.beforeEntry e).createEntry o ⟨e.account, e.amount⟩ = (.ok e, b')) :
    b.redo o (.entry e) = some b' := by
  unfold beforeEntry at h
  unfold redo
  dsimp only
  rw [h]
  exact if_pos rfl

theorem Reflects.redo_entry (h : b.Reflects o ds) (hb : b.Alone o) {e : Entry}
    (ha : b.accounts.contains e.account = true) :
    ∃ b', b.redo o (.entry e) = some b' ∧ b.Redone o (ds ++ [.entry e]) b' := by
  have hc : (b.beforeEntry e).Alone o := ⟨hb.sound.with_numbers _ _ _ _, hb.isOpen, hb.others⟩
  have hreflects : (b.beforeEntry e).Reflects o ds := h.with_numbers _ _ _ _
  obtain ⟨b', heq⟩ : ∃ b',
      (b.beforeEntry e).createEntry o ⟨e.account, e.amount⟩ = (.ok e, b') := by
    rcases (b.beforeEntry e).createEntry_cases o ⟨e.account, e.amount⟩ with
      ⟨hn, -⟩ | ⟨-, u, rfl, heq⟩
    · exact absurd ha hn
    · exact ⟨_, heq⟩
  obtain ⟨hsound, hw, hopen⟩ := hc.sound.createEntry hc.isOpen ⟨e.account, e.amount⟩
  have hdeeds := hreflects.createEntry hc.sound hc.isOpen ⟨e.account, e.amount⟩
  rw [heq] at hsound hw hopen hdeeds
  exact ⟨b', redo_entry_eq heq, hc.of_within hw hsound hopen, hdeeds, hw.ledger, hw.nonNegative⟩

theorem redo_adjustment_eq {answer : Account}
    (h : b.addBalance o a delta = (some (.ok answer), b')) :
    b.redo o (.adjustment a delta answer) = some b' := by
  unfold redo
  dsimp only
  rw [h]
  exact if_pos rfl

theorem Reflects.redo_adjustment (h : b.Reflects o ds) (hb : b.Alone o) {answer : Account}
    (hd : (b.ledger.enactAll ds).Admits b.nonNegative (.adjustment a delta answer)) :
    ∃ b', b.redo o (.adjustment a delta answer) = some b' ∧
      b.Redone o (ds ++ [.adjustment a delta answer]) b' := by
  have hawaits : (fun _ : Owner => (none : Option Int)) o = none ∨
      (fun _ : Owner => (none : Option Int)) o = some a := .inl rfl
  obtain ⟨b', heq⟩ : ∃ b', b.addBalance o a delta = (some (.ok answer), b') := by
    rcases hb.sound.addBalance_cases hb.isOpen hawaits delta with
      ⟨locks, heq, -, -, hsound, l, hl, hw⟩ | ⟨locks, heq, hmissing, -⟩ |
        ⟨c, heq, hw, hsound, hopen, hheld, hcase⟩
    · -- There is nobody to wait for.
      obtain ⟨p, hp, hmem⟩ := hsound.busy hl hw
      rw [hb.heldBy hp] at hmem
      cases hmem
    · -- The ledger has the account, so the bank has its row.
      obtain ⟨account, haccount, -⟩ := hd
      have hcontains := Ledger.contains_enactAll h.admitted a
      rw [contains_ledger, hmissing] at hcontains
      rw [Table.contains_eq_false_iff.1 hcontains] at haccount
      cases haccount
    · rw [← hw.ledger, ← hw.nonNegative] at hd
      have hanswer := (h.secured hb.isOpen hcase).adjust_of_admits hsound hheld hd
      rw [hanswer] at heq
      exact ⟨_, heq⟩
  obtain ⟨hw, hopen, hsound⟩ := hb.sound.addBalance hb.isOpen hawaits delta
  have hdeeds := h.addBalance hb.sound hb.isOpen hawaits delta
  rw [heq] at hw hopen hsound hdeeds
  rw [Option.isNone_some, if_neg Bool.false_ne_true, update_none] at hsound
  exact ⟨b', redo_adjustment_eq heq, hb.of_within hw hsound hopen, hdeeds, hw.ledger,
    hw.nonNegative⟩

/-- **A deed that is admitted can be done again.** -/
theorem Reflects.redo (h : b.Reflects o ds) (hb : b.Alone o)
    (hd : (b.ledger.enactAll ds).Admits b.nonNegative d) :
    ∃ b', b.redo o d = some b' ∧ b.Redone o (ds ++ [d]) b' := by
  have hcontains : ∀ a, (b.ledger.enactAll ds).accounts.contains a = true →
      b.accounts.contains a = true := fun a ha => by
    rwa [Ledger.contains_enactAll h.admitted, contains_ledger] at ha
  cases d with
  | transfer t => exact h.redo_transfer hb (hcontains _ hd.1) (hcontains _ hd.2)
  | entry e => exact h.redo_entry hb (hcontains _ hd)
  | adjustment a delta answer => exact h.redo_adjustment hb hd

/-- **Deeds that are admitted can be done again,** one after the other. -/
theorem Reflects.redoAll (h : b.Reflects o ds) (hb : b.Alone o)
    (hd : (b.ledger.enactAll ds).AdmitsAll b.nonNegative es') :
    ∃ b', es'.foldlM (Bank.redo o) b = some b' ∧ b.Redone o (ds ++ es') b' := by
  -- Induction on the deeds that are left, with those that were done again as the draft.
  induction es' generalizing b ds with
  | nil => exact ⟨b, rfl, hb, by rwa [List.append_nil], rfl, rfl⟩
  | cons d es' ih =>
      obtain ⟨b₁, hredo, hb₁, hreflects, hledger, hnn⟩ := h.redo hb hd.1
      have hrest := hd.2
      rw [← Ledger.enactAll_concat, ← hledger, ← hnn] at hrest
      obtain ⟨b', hfold, hb', hreflects', hledger', hnn'⟩ := ih hreflects hb₁ hrest
      rw [List.append_assoc] at hreflects'
      refine ⟨b', ?_, hb', hreflects', hledger'.trans hledger, hnn'.trans hnn⟩
      rw [List.foldlM_cons, hredo]
      exact hfold

/-! ## Effects one by one -/

/-- A sound bank at which nobody works. -/
structure Quiet (b : Bank) : Prop where
  sound : b.Sound fun _ => none
  works : b.works = []

theorem Quiet.work? (h : b.Quiet) (o : Owner) : b.work? o = none := by
  unfold Bank.work?
  rw [h.works]
  rfl

theorem Quiet.heldBy (h : b.Quiet) (o : Owner) : b.heldBy o = [] := by
  unfold Bank.heldBy Bank.work
  rw [h.work? o]
  rfl

theorem quiet_empty (nonNegative : Bool) : (Bank.empty nonNegative).Quiet :=
  ⟨sound_empty nonNegative, rfl⟩

/-- An effect took place again at a quiet bank. -/
structure Replayed (b : Bank) (e : Effect) (b' : Bank) : Prop where
  quiet : b'.Quiet
  ledger : b'.ledger = b.ledger.apply e
  nonNegative : b'.nonNegative = b.nonNegative

theorem replayOne_opened_eq {n : NewAccount} {answer : Account}
    (h : (b.beforeOpening answer).createAccount n = (.ok answer, b')) :
    b.replayOne o (.opened n answer) = some b' := by
  unfold beforeOpening at h
  unfold replayOne
  dsimp only
  rw [h]
  exact if_pos rfl

theorem Quiet.replay_opened (h : b.Quiet) {n : NewAccount} {answer : Account}
    (ha : b.ledger.Allows b.nonNegative (.opened n answer)) :
    ∃ b', b.replayOne o (.opened n answer) = some b' ∧ b.Replayed (.opened n answer) b' := by
  obtain ⟨hfresh, hstamp, hbalance⟩ := ha
  have hc : (b.beforeOpening answer).Sound fun _ => none := h.sound.with_numbers _ _ _ _
  have hnew : b.accounts.get? answer.id = none := by
    rwa [get?_ledger, Option.map_eq_none_iff] at hfresh
  obtain ⟨b', heq, hworks⟩ : ∃ b',
      (b.beforeOpening answer).createAccount n = (.ok answer, b') ∧ b'.works = [] := by
    -- The balance was checked the first time.
    rcases (b.beforeOpening answer).createAccount_cases n with
      ⟨hnn, hneg, -⟩ | ⟨-, account, haccount, heq⟩
    · exact absurd (hbalance hnn) (Int.not_le.2 hneg)
    · obtain rfl : account = answer := haccount.trans hstamp.symm
      exact ⟨_, heq, h.works⟩
  obtain ⟨hs, hk, hledger, -⟩ := hc.createAccount hnew n
  rw [heq] at hs hk hledger
  exact ⟨b', replayOne_opened_eq heq, ⟨hs, hworks⟩, hledger, (hk o).nonNegative⟩

/-- At a quiet bank nobody has to wait. -/
theorem Quiet.not_busy (h : b.Quiet) {locks : Table Lock}
    (hs : ({ b with locks } : Bank).Sound (update (fun _ => none) o (some a))) :
    ¬ ∃ l, locks.get? a = some l ∧ o ∈ l.waiting := by
  rintro ⟨l, hl, hw⟩
  obtain ⟨p, -, hmem⟩ := hs.busy hl hw
  rw [h.heldBy p] at hmem
  cases hmem

theorem Quiet.replay_updated (h : b.Quiet) {balance : Int} {answer : Account}
    (ha : b.ledger.Allows b.nonNegative (.updated a balance answer)) :
    ∃ b', b.replayOne o (.updated a balance answer) = some b' ∧
      b.Replayed (.updated a balance answer) b' := by
  obtain ⟨account, haccount, rfl, hbalance⟩ := ha
  rw [get?_ledger, Option.map_eq_some_iff] at haccount
  obtain ⟨r, hr, rfl⟩ := haccount
  rcases h.sound.updateAccount_cases (a := a) (h.heldBy o) (.inl rfl) balance with
    ⟨locks, ⟨-, -, hs, hw⟩ | ⟨answer, -, hanswer, -⟩ | ⟨r', hr', -, -, heq, hs⟩⟩
  · exact absurd hw (h.not_busy hs)
  · rcases hanswer with ⟨-, hmissing⟩ | ⟨-, hnn, hneg⟩
    · rw [Table.contains_eq_false_iff, hr] at hmissing
      cases hmissing
    · exact absurd (hbalance hnn) (Int.not_le.2 hneg)
  · obtain rfl := Option.some.inj (hr.symm.trans hr')
    rw [update_none] at hs
    refine ⟨_, ?_, ⟨hs, h.works⟩, ledger_set hr _ locks, rfl⟩
    unfold replayOne
    dsimp only
    rw [heq]
    exact if_pos rfl

theorem Quiet.replay_deleted (h : b.Quiet)
    (ha : b.ledger.Allows b.nonNegative (.deleted a)) :
    ∃ b', b.replayOne o (.deleted a) = some b' ∧ b.Replayed (.deleted a) b' := by
  obtain ⟨hcontains, hrefers⟩ := ha
  rw [contains_ledger] at hcontains
  rcases h.sound.deleteAccount_cases (a := a) (h.heldBy o) (.inl rfl) with
    ⟨locks, ⟨-, -, hs, hw⟩ | ⟨answer, -, hanswer, -⟩ | ⟨-, -, -, heq, hs⟩⟩
  · exact absurd hw (h.not_busy hs)
  · rcases hanswer with ⟨-, hmissing⟩ | ⟨-, hnamed⟩
    · rw [hcontains] at hmissing
      cases hmissing
    · -- Nobody works here, so nothing is pinned.
      have hpinned : a ∉ b.pinned := by
        unfold Bank.pinned
        rw [h.works]
        simp
      exact absurd hnamed (not_or.2 ⟨hrefers, hpinned⟩)
  · rw [update_none] at hs
    refine ⟨_, ?_, ⟨hs, h.works⟩, ledger_erase b a locks, rfl⟩
    unfold replayOne
    dsimp only
    rw [heq]

theorem Quiet.replay_committed (h : b.Quiet)
    (ha : b.ledger.Allows b.nonNegative (.committed ds)) :
    ∃ b', b.replayOne o (.committed ds) = some b' ∧ b.Replayed (.committed ds) b' := by
  have hclosed : ¬ b.IsOpen o := by
    unfold IsOpen
    rw [h.work? o]
    simp
  have hbegun : (b.begin o).Alone o := by
    refine ⟨h.sound.begin hclosed, ?_, fun hp => (work?_begin_of_ne b hp).trans (h.work? _)⟩
    unfold IsOpen
    rw [work?_begin_self hclosed]
    rfl
  have hreflects : (b.begin o).Reflects o [] :=
    .of_empty (by rw [work_begin, work_of_not_isOpen hclosed])
  obtain ⟨c, hredo, hc, hdeeds, hledger, hnn⟩ := hreflects.redoAll hbegun ha.1
  -- The unit of work was the only one, and is closed by the commit.
  have hcommit : (c.commit o).works = [] := by
    rw [commit_eq hc.isOpen (hc.sound.locking.once o)]
    refine List.filter_eq_nil_iff.2 fun x hx => ?_
    have hopen : c.IsOpen x.1 := (isOpen_iff_mem_keys c x.1).2 (List.mem_map.2 ⟨x, hx, rfl⟩)
    have ho : x.1 = o := by
      by_contra hne
      unfold IsOpen at hopen
      rw [hc.others hne] at hopen
      cases hopen
    simp [ho]
  refine ⟨c.commit o, ?_, ⟨hc.sound.commit hc.isOpen rfl, hcommit⟩, ?_, ?_⟩
  · unfold replayOne
    dsimp only
    rw [hredo]
    rfl
  · rw [hdeeds.commit hc.sound hc.isOpen, hledger]
    rfl
  · rw [commit_eq hc.isOpen (hc.sound.locking.once o)]
    exact hnn

/-- **An effect that the ledger allows can be made to take place again.** -/
theorem Quiet.replayOne (h : b.Quiet) (o : Owner) (ha : b.ledger.Allows b.nonNegative e) :
    ∃ b', b.replayOne o e = some b' ∧ b.Replayed e b' := by
  cases e with
  | opened n answer => exact h.replay_opened ha
  | updated a balance answer => exact h.replay_updated ha
  | deleted a => exact h.replay_deleted ha
  | committed ds => exact h.replay_committed ha

/-- **Effects that the ledger allows can be replayed,** and do to the ledger what they say. -/
theorem Quiet.replay (h : b.Quiet) (o : Owner) (ha : b.ledger.AllowsAll b.nonNegative es) :
    ∃ b', b.replay o es = some b' ∧ b'.ledger = b.ledger.applyAll es := by
  induction es generalizing b with
  | nil => exact ⟨b, rfl, rfl⟩
  | cons e es ih =>
      obtain ⟨b₁, hone, hq, hledger, hnn⟩ := h.replayOne o ha.1
      have hrest := ha.2
      rw [← hledger, ← hnn] at hrest
      obtain ⟨b', hreplay, hledger'⟩ := ih hq hrest
      refine ⟨b', ?_, ?_⟩
      · unfold Bank.replay
        rw [List.foldlM_cons, hone]
        exact hreplay
      · calc b'.ledger = b₁.ledger.applyAll es := hledger'
          _ = (b.ledger.apply e).applyAll es := by rw [hledger]
          _ = b.ledger.applyAll (e :: es) := rfl

end DoubleEntry.Bank
