import DoubleEntry.Proofs.Adjusting
set_option autoImplicit false

/-! # What a unit of work has done so far

An open unit of work amounts to the list of its deeds (`Bank.Reflects`): what it has staged is what
the deeds stage, and the working copies of the rows that it has locked are what the deeds make of
the committed ledger. Its own operations append to the list when they succeed. Whatever other owners
do leaves the rows alone that it has locked (`Bank.Keeps`), and with them the list.
-/

namespace DoubleEntry

open Function (update update_self update_of_ne)

/-- What an answer adds to the deeds of a unit of work: nothing if the operation failed. -/
def Deed.noted {α : Type} (deed : α → Deed) : Except LedgerError α → List Deed
  | .ok answer => [deed answer]
  | .error _ => []

theorem Row.versions_without {w : Work} {a : Int} (h : a ∉ w.locked) (r : Row) :
    (r.without w a).versions = r.versions := by
  unfold without versions
  rw [Settled.restored_of_not_mem _ h]

namespace Bank

/-- **What an owner has done stays as it was** from one bank to another: what it staged, which rows
it locked, and both versions of these rows. -/
structure Keeps (o : Owner) (b b' : Bank) : Prop where
  isOpen : b'.IsOpen o ↔ b.IsOpen o
  held : (b'.work o).held = (b.work o).held
  transfers : (b'.work o).transfers = (b.work o).transfers
  entries : (b'.work o).entries = (b.work o).entries
  nonNegative : b'.nonNegative = b.nonNegative
  versions : ∀ a ∈ b.heldBy o,
    (b'.accounts.get? a).map Row.versions = (b.accounts.get? a).map Row.versions

/-- **A unit of work amounts to a list of deeds.** -/
structure Reflects (b : Bank) (o : Owner) (ds : List Deed) : Prop where
  transfers : (b.work o).transfers = ds.filterMap Deed.transfer?
  entries : (b.work o).entries = ds.filterMap Deed.entry?
  adjusted : ∀ {d a}, d ∈ ds → d.adjusted? = some a → a ∈ b.heldBy o
  admitted : b.ledger.AdmitsAll b.nonNegative ds
  working : ∀ {a r}, a ∈ b.heldBy o → b.accounts.get? a = some r →
    (b.ledger.enactAll ds).accounts.get? a = some r.working

variable {b b' b'' : Bank} {o p : Owner} {awaits awaits' : Owner → Option Int} {a delta : Int}
  {r : Row} {ds : List Deed}

namespace Keeps

theorem heldBy (h : b.Keeps o b') : b'.heldBy o = b.heldBy o := congrArg (List.map _) h.held

theorem refl (o : Owner) (b : Bank) : b.Keeps o b :=
  ⟨.rfl, rfl, rfl, rfl, rfl, fun _ _ => rfl⟩

theorem trans (h : b.Keeps o b') (h' : b'.Keeps o b'') : b.Keeps o b'' where
  isOpen := h'.isOpen.trans h.isOpen
  held := h'.held.trans h.held
  transfers := h'.transfers.trans h.transfers
  entries := h'.entries.trans h.entries
  nonNegative := h'.nonNegative.trans h.nonNegative
  versions a ha := (h'.versions a (by rwa [h.heldBy])).trans (h.versions a ha)

/-- Only the unit of work of the owner and the rows that it has locked matter. -/
theorem of_work? (hwork : b'.work? o = b.work? o) (hn : b'.nonNegative = b.nonNegative)
    (hv : ∀ a ∈ b.heldBy o,
      (b'.accounts.get? a).map Row.versions = (b.accounts.get? a).map Row.versions) :
    b.Keeps o b' := by
  have hw : b'.work o = b.work o := by
    unfold Bank.work
    rw [hwork]
  exact ⟨by unfold Bank.IsOpen; rw [hwork], by rw [hw], by rw [hw], by rw [hw], hn, hv⟩

theorem of_locks (b : Bank) (o : Owner) (locks : Table Lock) : b.Keeps o { b with locks } :=
  of_work? rfl rfl fun _ _ => rfl

end Keeps

/-- **Owners do not disturb each other.** -/
theorem Within.keeps (h : b.Within o b') (hb : b.Sound awaits) (hb' : b'.Sound awaits')
    (hp : p ≠ o) : b.Keeps p b' := by
  refine Keeps.of_work? (h.work? hp) h.nonNegative fun a ha => ?_
  have hnot : a ∉ (b.work o).locked := fun ho => hp (hb.locking.owner_eq ha ho)
  have hnot' : a ∉ (b'.work o).locked := fun ho => by
    have ha' : a ∈ b'.heldBy p := by rwa [h.heldBy hp]
    exact hp (hb'.locking.owner_eq ha' ho)
  have hrow := congrArg (Option.map Row.versions) (h.rows a)
  rw [Option.map_map, Option.map_map] at hrow
  rwa [show Row.versions ∘ Row.without (b'.work o) a = Row.versions from
      funext (Row.versions_without hnot'),
    show Row.versions ∘ Row.without (b.work o) a = Row.versions from
      funext (Row.versions_without hnot)] at hrow

namespace Reflects

/-- A unit of work that was just opened has done nothing. -/
theorem of_empty (h : b.work o = {}) : b.Reflects o [] := by
  have hheld : b.heldBy o = [] := by
    unfold Bank.heldBy
    rw [h]
    rfl
  refine ⟨by rw [h]; rfl, by rw [h]; rfl, by simp, trivial, ?_⟩
  intro a r ha
  rw [hheld] at ha
  cases ha

/-- What deeds name exists if their rows are staged. -/
theorem named_exists (hb : b.Anchored)
    (htransfers : (b.work o).transfers = ds.filterMap Deed.transfer?)
    (hentries : (b.work o).entries = ds.filterMap Deed.entry?) {d : Deed} (hd : d ∈ ds)
    (ha : a ∈ d.named) : b.ledger.accounts.contains a = true := by
  rw [contains_ledger]
  cases d with
  | transfer t =>
      have ht : t ∈ (b.work o).transfers := by
        rw [htransfers]
        exact List.mem_filterMap.2 ⟨_, hd, rfl⟩
      obtain ⟨hs, htg⟩ := hb.stagedTransfer ht
      rcases List.mem_cons.1 ha with rfl | ha
      · exact hb.pinned (pinned_of_work hs)
      · rw [List.mem_singleton.1 ha]
        exact hb.pinned (pinned_of_work htg)
  | entry e =>
      have he : e ∈ (b.work o).entries := by
        rw [hentries]
        exact List.mem_filterMap.2 ⟨_, hd, rfl⟩
      rw [List.mem_singleton.1 ha]
      exact hb.pinned (pinned_of_work (hb.stagedEntry he))
  | adjustment b delta answer => cases ha

/-- **Deeds survive what others do.** -/
theorem of_keeps (h : b.Reflects o ds) (hk : b.Keeps o b') (hb' : b'.Anchored) :
    b'.Reflects o ds := by
  have hrow : ∀ a ∈ b.heldBy o, ∀ r', b'.accounts.get? a = some r' →
      ∃ r, b.accounts.get? a = some r ∧ r.committed = r'.committed ∧ r.working = r'.working := by
    intro a ha r' hr'
    refine Row.exists_of_versions ?_
    rw [← hr']
    exact hk.versions a ha
  have hsame : ∀ a ∈ b.heldBy o, b'.ledger.accounts.get? a = b.ledger.accounts.get? a := by
    intro a ha
    rw [get?_ledger, get?_ledger]
    have hv := congrArg (Option.map Prod.fst) (hk.versions a ha)
    rwa [Option.map_map, Option.map_map] at hv
  have htransfers := hk.transfers.trans h.transfers
  have hentries := hk.entries.trans h.entries
  have hadmitted : b'.ledger.AdmitsAll b'.nonNegative ds := by
    rw [hk.nonNegative]
    exact h.admitted.congr (fun d hd a ha => hsame a (h.adjusted hd ha)) fun d hd a ha =>
      named_exists hb' htransfers hentries hd ha
  exact
    { transfers := htransfers
      entries := hentries
      adjusted := by
        intro d a hd ha
        rw [hk.heldBy]
        exact h.adjusted hd ha
      admitted := hadmitted
      working := by
        intro a r' ha hr'
        rw [hk.heldBy] at ha
        obtain ⟨r, hr, -, hw⟩ := hrow a ha r' hr'
        -- What the deeds add does not depend on the rest of the ledger.
        have hold := h.working ha hr
        rw [Ledger.get?_enactAll h.admitted] at hold
        rw [Ledger.get?_enactAll hadmitted, hsame a ha, hold, hw] }

/-! ## Operations of the unit of work itself -/

/-- Staging a row adds it to the deeds. -/
theorem stage (h : b.Reflects o ds) (ho : b.IsOpen o) {f : Work → Work} {d : Deed}
    (hheld : (f (b.work o)).held = (b.work o).held)
    (htransfers : (f (b.work o)).transfers = (b.work o).transfers ++ d.transfer?.toList)
    (hentries : (f (b.work o)).entries = (b.work o).entries ++ d.entry?.toList)
    (hstaged : d.adjusted? = none) (hnamed : ∀ a ∈ d.named, b.accounts.contains a = true) :
    (b.modifyWork o f).Reflects o (ds ++ [d]) := by
  have hsame := heldBy_modifyWork ho hheld
  have hadmits : (b.ledger.enactAll ds).Admits b.nonNegative d := by
    refine (Ledger.admits_iff_of_staged hstaged).2 fun a ha => ?_
    rw [Ledger.contains_enactAll h.admitted, contains_ledger]
    exact hnamed a ha
  exact
    { transfers := by
        rw [work_modifyWork ho, update_self, htransfers, h.transfers, filterMap_concat]
      entries := by
        rw [work_modifyWork ho, update_self, hentries, h.entries, filterMap_concat]
      adjusted := by
        intro e a he ha
        rw [hsame]
        rcases List.mem_append.1 he with he | he
        · exact h.adjusted he ha
        · rw [List.mem_singleton.1 he, hstaged] at ha
          cases ha
      admitted := Ledger.admitsAll_concat.2 ⟨h.admitted, hadmits⟩
      working := by
        intro a r ha hr
        rw [hsame] at ha
        show (b.ledger.enactAll (ds ++ [d])).accounts.get? a = some r.working
        rw [Ledger.enactAll_concat, Ledger.get?_enact_of_staged hstaged]
        exact h.working ha hr }

theorem with_numbers (h : b.Reflects o ds) (clock : Timestamp)
    (nextAccount nextEntry nextTransfer : Int) :
    ({ b with clock, nextAccount, nextEntry, nextTransfer } : Bank).Reflects o ds :=
  ⟨h.transfers, h.entries, h.adjusted, h.admitted, h.working⟩

theorem stageTransfer (h : b.Reflects o ds) (ho : b.IsOpen o) {t : Transfer}
    (hs : b.accounts.contains t.source = true) (ht : b.accounts.contains t.target = true) :
    (b.stageTransfer o t).Reflects o (ds ++ [.transfer t]) :=
  (h.with_numbers b.clock b.nextAccount b.nextEntry (b.nextTransfer + 1)).stage ho rfl rfl
    (List.append_nil _).symm rfl (by simp [Deed.named, hs, ht])

theorem stageEntry (h : b.Reflects o ds) (ho : b.IsOpen o) {e : Entry}
    (ha : b.accounts.contains e.account = true) :
    (b.stageEntry o e).Reflects o (ds ++ [.entry e]) :=
  (h.with_numbers b.clock b.nextAccount (b.nextEntry + 1) b.nextTransfer).stage ho rfl
    (List.append_nil _).symm rfl rfl (by simp [Deed.named, ha])

/-- Locking one more row. -/
theorem hold (h : b.Reflects o ds) (ho : b.IsOpen o) (hr : b.accounts.get? a = some r)
    (ha : a ∉ b.heldBy o) (hclean : r.working = r.committed) : (b.hold o a).Reflects o ds := by
  have hheld : (b.hold o a).heldBy o = b.heldBy o ++ [a] := by
    rw [heldBy_hold ho hr, update_self]
  rw [hold_eq hr] at hheld ⊢
  exact
    { transfers := by
        rw [work_modifyWork ho, update_self]
        exact h.transfers
      entries := by
        rw [work_modifyWork ho, update_self]
        exact h.entries
      adjusted := by
        intro d k hd hk
        rw [hheld]
        exact List.mem_append_left _ (h.adjusted hd hk)
      admitted := h.admitted
      working := by
        intro k s hk hs
        rw [hheld] at hk
        rcases List.mem_append.1 hk with hk | hk
        · exact h.working hk hs
        · -- No deed has adjusted the row, so its working copy is still the committed version.
          rw [List.mem_singleton.1 hk] at hs ⊢
          obtain rfl := Option.some.inj (hr.symm.trans hs)
          have hledger : b.ledger.accounts.get? a = some r.working := by
            rw [get?_ledger, hr, hclean]
            rfl
          have huntouched : (b.ledger.enactAll ds).accounts.get? a = b.ledger.accounts.get? a :=
            Ledger.get?_enactAll_of_not_adjusted fun d hd e => ha (h.adjusted hd e)
          exact huntouched.trans hledger }

/-- Adjusting a row that the unit of work has locked. -/
theorem draft (h : b.Reflects o ds) (ha : a ∈ b.heldBy o) (hr : b.accounts.get? a = some r)
    (hin : Amount.InRange (r.working.balance + delta))
    (hnn : b.nonNegative = true → 0 ≤ r.working.balance + delta) :
    (b.modifyRow a (Row.draft { r.working with balance := r.working.balance + delta })).Reflects o
      (ds ++ [.adjustment a delta { r.working with balance := r.working.balance + delta }]) := by
  have hledger : (b.modifyRow a
      (Row.draft { r.working with balance := r.working.balance + delta })).ledger = b.ledger :=
    (within_draft hr ha _).ledger
  exact
    { transfers := by
        rw [filterMap_concat]
        exact h.transfers.trans (List.append_nil _).symm
      entries := by
        rw [filterMap_concat]
        exact h.entries.trans (List.append_nil _).symm
      adjusted := by
        intro d k hd hk
        rcases List.mem_append.1 hd with hd | hd
        · exact h.adjusted hd hk
        · rw [List.mem_singleton.1 hd] at hk
          rwa [← Option.some.inj hk]
      admitted := by
        rw [hledger]
        exact Ledger.admitsAll_concat.2 ⟨h.admitted, r.working, h.working ha hr, rfl, hin, hnn⟩
      working := by
        intro k s hk hs
        rw [hledger, Ledger.enactAll_concat, Ledger.get?_enact]
        dsimp only
        rcases Table.get?_modify_eq_some.1 hs with ⟨rfl, s', -, rfl⟩ | ⟨hka, hs⟩
        · rw [if_pos rfl]
          rfl
        · rw [if_neg hka]
          exact h.working hk hs }

/-- Adjusting a row adds to the deeds what the adjustment answers. -/
theorem adjust (h : b.Reflects o ds) (hb : b.Sound awaits) (ha : a ∈ b.heldBy o) (delta : Int) :
    (b.adjust a delta).2.Reflects o
      (ds ++ Deed.noted (.adjustment a delta) (b.adjust a delta).1) := by
  obtain ⟨g, hg, rfl⟩ := List.mem_map.1 ha
  obtain ⟨r, hr, -⟩ := hb.settled.prior hg
  rcases adjust_cases hr delta with ⟨-, heq⟩ | ⟨-, -, heq⟩ | ⟨hin, hnn, heq⟩
  · rw [heq]
    simpa [Deed.noted] using h
  · rw [heq]
    simpa [Deed.noted] using h
  · rw [heq]
    exact h.draft ha hr hin hnn

end Reflects

theorem keeps_addPin (ho : b.IsOpen o) (a : Int) : b.Keeps o (b.addPin o a) := by
  refine ⟨isOpen_addPin b o a o, ?_, ?_, ?_, rfl, fun k _ => versions_addPin a k⟩
  · rw [work_addPin a ho, update_self]
  · rw [work_addPin a ho, update_self]
  · rw [work_addPin a ho, update_self]

namespace Reflects

theorem addPin (h : b.Reflects o ds) (hb : b.Sound awaits) (ho : b.IsOpen o)
    (ha : b.accounts.contains a = true) : (b.addPin o a).Reflects o ds :=
  h.of_keeps (keeps_addPin ho a) (hb.addPin ho ha).anchored

/-- **Recording a transfer** adds it to the deeds. -/
theorem createTransfer (h : b.Reflects o ds) (hb : b.Sound awaits) (ho : b.IsOpen o)
    (n : NewTransfer) : (b.createTransfer o n).2.Reflects o
      (ds ++ Deed.noted .transfer (b.createTransfer o n).1) := by
  rcases createTransfer_cases b o n with ⟨-, heq⟩ | ⟨hs, -, heq⟩ | ⟨hs, ht, t, rfl, heq⟩
  · rw [heq]
    simpa [Deed.noted] using h
  · rw [heq]
    simpa [Deed.noted] using h.addPin hb ho hs
  · rw [heq]
    have ho₁ : (b.addPin o n.source).IsOpen o := by simpa using ho
    have ho₂ : ((b.addPin o n.source).addPin o n.target).IsOpen o := by simpa using ho
    have ht₁ : (b.addPin o n.source).accounts.contains n.target = true := by simpa using ht
    have hpinned := (h.addPin hb ho hs).addPin (hb.addPin ho hs) ho₁ ht₁
    exact hpinned.stageTransfer ho₂ (by simpa using hs) (by simpa using ht)

/-- **Recording an entry** adds it to the deeds. -/
theorem createEntry (h : b.Reflects o ds) (hb : b.Sound awaits) (ho : b.IsOpen o) (n : NewEntry) :
    (b.createEntry o n).2.Reflects o (ds ++ Deed.noted .entry (b.createEntry o n).1) := by
  rcases createEntry_cases b o n with ⟨-, heq⟩ | ⟨ha, e, rfl, heq⟩
  · rw [heq]
    simpa [Deed.noted] using h
  · rw [heq]
    have ho₁ : (b.addPin o n.account).IsOpen o := by simpa using ho
    exact (h.addPin hb ho ha).stageEntry ho₁ (by simpa using ha)

/-- A row that is locked, before or just now, is not adjusted by that. -/
theorem secured (h : b.Reflects o ds) (ho : b.IsOpen o)
    (hcase : b' = b ∨ (∀ p, a ∉ b.heldBy p) ∧ ∃ r, b.accounts.get? a = some r ∧
      r.working = r.committed ∧ ∃ locks, b' = ({ b with locks } : Bank).hold o a) :
    b'.Reflects o ds := by
  rcases hcase with rfl | ⟨hfree, r, hr, hclean, locks, rfl⟩
  · exact h
  · have hwith : ({ b with locks } : Bank).Reflects o ds :=
      ⟨h.transfers, h.entries, h.adjusted, h.admitted, h.working⟩
    exact hwith.hold ho hr (hfree o) hclean

/-- **Adding to a balance** adds to the deeds what it answers. -/
theorem addBalance (h : b.Reflects o ds) (hb : b.Sound awaits) (ho : b.IsOpen o)
    (ha : awaits o = none ∨ awaits o = some a) (delta : Int) :
    (b.addBalance o a delta).2.Reflects o (ds ++
      match (b.addBalance o a delta).1 with
      | none => []
      | some r => Deed.noted (.adjustment a delta) r) := by
  have hlocks : ∀ {locks aw}, ({ b with locks } : Bank).Sound aw →
      ({ b with locks } : Bank).Reflects o ds := fun hs =>
    h.of_keeps (.of_locks b o _) hs.anchored
  rcases hb.addBalance_cases ho ha delta with ⟨locks, heq, -, -, hsound, -⟩ |
    ⟨locks, heq, -, -, hsound⟩ | ⟨b', heq, -, hsound, ho', hheld, hcase⟩
  · rw [heq]
    simpa using hlocks hsound
  · rw [heq]
    simpa [Deed.noted] using hlocks hsound
  · rw [heq]
    exact (h.secured ho hcase).adjust hsound hheld delta

end Reflects

end Bank

end DoubleEntry
