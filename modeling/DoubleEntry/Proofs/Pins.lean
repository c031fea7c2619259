import DoubleEntry.Proofs.Effects
import DoubleEntry.Proofs.Rows
set_option autoImplicit false

/-! # Pins and references

A staged transfer or entry pins the accounts that it names, and a committed one refers to them.
`Bank.Anchored` says that pins are counted exactly and that whatever is named exists.
-/

namespace DoubleEntry

open Function (update)

namespace Bank

theorem pinned_of_work {b : Bank} {o : Owner} {a : Int} (h : a ∈ (b.work o).pinned) :
    a ∈ b.pinned := by
  by_cases ho : b.IsOpen o
  · obtain ⟨l, r, hw, -⟩ := List.lookup_eq_some_iff.1 (work?_of_isOpen ho)
    unfold pinned
    rw [hw, List.flatMap_append, List.flatMap_cons]
    simp [h]
  · rw [work_of_not_isOpen ho] at h
    cases h

theorem keys_modifyWork (b : Bank) (o : Owner) (f : Work → Work) :
    (b.modifyWork o f).works.map Prod.fst = b.works.map Prod.fst := by
  unfold modifyWork
  rw [List.map_map]
  refine List.map_congr_left fun x _ => ?_
  by_cases h : x.1 = o <;> simp [h]

/-- Changing a unit of work changes the pins by what it changes in that unit of work. -/
theorem count_pinned_modifyWork {b : Bank} {o : Owner} (hn : (b.works.map Prod.fst).Nodup)
    (ho : b.IsOpen o) (f : Work → Work) (a : Int) :
    (b.modifyWork o f).pinned.count a + (b.work o).pinned.count a =
      b.pinned.count a + (f (b.work o)).pinned.count a := by
  obtain ⟨l, r, hw, hmodify, -⟩ := works_split hn (work?_of_isOpen ho)
  unfold pinned
  rw [hmodify f, hw]
  simp only [List.flatMap_append, List.flatMap_cons, List.count_append]
  omega

/-- Closing a unit of work takes its pins away. -/
theorem count_pinned_filter {b : Bank} {o : Owner} (hn : (b.works.map Prod.fst).Nodup) (a : Int) :
    ((b.works.filter fun x => x.1 ≠ o).flatMap fun x => x.2.pinned).count a +
      (b.work o).pinned.count a = b.pinned.count a := by
  by_cases ho : b.IsOpen o
  · obtain ⟨l, r, hw, -, hclose⟩ := works_split hn (work?_of_isOpen ho)
    have hfilter : (b.works.filter fun x => x.1 ≠ o) = l ++ r := hclose
    unfold pinned
    rw [hfilter, hw]
    simp only [List.flatMap_append, List.flatMap_cons, List.count_append]
    omega
  · rw [filter_works_of_not_isOpen ho, work_of_not_isOpen ho]
    rfl

/-! ## Pinning -/

/-- The bank after a unit of work has pinned an account that exists. -/
def addPin (b : Bank) (o : Owner) (a : Int) : Bank :=
  (b.modifyRow a fun r => { r with pins := r.pins + 1 }).modifyWork o fun w =>
    { w with pinned := w.pinned ++ [a] }

theorem pin_of_contains {b : Bank} {a : Int} (h : b.accounts.contains a = true) (o : Owner)
    (kind : StagedKind) : b.pin o kind a = (.ok (), b.addPin o a) := if_pos h

theorem pin_of_missing {b : Bank} {a : Int} (h : ¬ b.accounts.contains a = true) (o : Owner)
    (kind : StagedKind) :
    b.pin o kind a = (.error (.constraintViolation (.missingAccount kind a)), b) := if_neg h

section AddPin

variable (b : Bank) (o : Owner) (a : Int)

@[simp] theorem isOpen_addPin (p : Owner) : (b.addPin o a).IsOpen p ↔ b.IsOpen p :=
  isOpen_modifyWork (b.modifyRow a _) o p _

@[simp] theorem contains_addPin (k : Int) :
    (b.addPin o a).accounts.contains k = b.accounts.contains k := Table.contains_modify _ _ _ _

@[simp] theorem ledgerNumbers_addPin : (b.addPin o a).nextTransfer = b.nextTransfer ∧
    (b.addPin o a).nextEntry = b.nextEntry ∧ (b.addPin o a).clock = b.clock ∧
    (b.addPin o a).nonNegative = b.nonNegative := ⟨rfl, rfl, rfl, rfl⟩

variable {b o}

theorem work_addPin (ho : b.IsOpen o) : (b.addPin o a).work =
    update b.work o { b.work o with pinned := (b.work o).pinned ++ [a] } :=
  work_modifyWork (b := b.modifyRow a _) ho _

/-- One pin more for the account that is pinned. -/
theorem count_pinned_addPin (hn : (b.works.map Prod.fst).Nodup) (ho : b.IsOpen o) (k : Int) :
    (b.addPin o a).pinned.count k = b.pinned.count k + if k = a then 1 else 0 := by
  have hk := count_pinned_modifyWork (b := b.modifyRow a fun r => { r with pins := r.pins + 1 })
    (o := o) hn ho (fun w => { w with pinned := w.pinned ++ [a] }) k
  have hsame : (b.modifyRow a fun r => { r with pins := r.pins + 1 }).pinned = b.pinned := rfl
  have hone : (if (a == k) = true then 1 else 0) = if k = a then 1 else 0 := by
    by_cases hka : k = a
    · simp [hka]
    · simp [hka, Ne.symm hka]
  rw [work_modifyRow, List.count_append, List.count_singleton, hsame] at hk
  unfold addPin
  omega

end AddPin

/-! ## The invariant -/

/-- **Whatever is named exists, and pins are counted.** -/
structure Anchored (b : Bank) : Prop where
  distinct : (b.works.map Prod.fst).Nodup
  pins : ∀ {a r}, b.accounts.get? a = some r → r.pins = b.pinned.count a
  pinned : ∀ {a}, a ∈ b.pinned → b.accounts.contains a = true
  stagedTransfer : ∀ {o t}, t ∈ (b.work o).transfers →
    t.source ∈ (b.work o).pinned ∧ t.target ∈ (b.work o).pinned
  stagedEntry : ∀ {o e}, e ∈ (b.work o).entries → e.account ∈ (b.work o).pinned
  transfer : ∀ {k t}, b.transfers.get? k = some t →
    b.accounts.contains t.source = true ∧ b.accounts.contains t.target = true
  entry : ∀ {k e}, b.entries.get? k = some e → b.accounts.contains e.account = true

namespace Anchored

variable {b : Bank} {o : Owner} {a : Int} {r : Row}

theorem begin (h : b.Anchored) (ho : ¬ b.IsOpen o) : (b.begin o).Anchored where
  distinct := by
    have hnot : o ∉ b.works.map Prod.fst := fun hmem => ho ((isOpen_iff_mem_keys b o).2 hmem)
    unfold Bank.begin
    rw [List.map_append, List.nodup_append]
    refine ⟨h.distinct, by simp, fun x hx y hy e => hnot ?_⟩
    have hy : y = o := by simpa using hy
    rwa [← hy, ← e]
  pins := by
    intro k r hr
    have hpinned : (b.begin o).pinned = b.pinned := by simp [Bank.begin, Bank.pinned]
    rw [hpinned]
    exact h.pins hr
  pinned := by
    intro k hk
    have hpinned : (b.begin o).pinned = b.pinned := by simp [Bank.begin, Bank.pinned]
    rw [hpinned] at hk
    exact h.pinned hk
  stagedTransfer := by
    intro p t
    rw [work_begin]
    exact h.stagedTransfer
  stagedEntry := by
    intro p e
    rw [work_begin]
    exact h.stagedEntry
  transfer := h.transfer
  entry := h.entry

/-- Only the pins of a row and whether it exists matter. -/
theorem of_accounts (h : b.Anchored) {accounts : Table Row}
    (hsame : ∀ k, (accounts.get? k).map Row.pins = (b.accounts.get? k).map Row.pins) :
    ({ b with accounts } : Bank).Anchored := by
  have hcontains : ∀ k, accounts.contains k = b.accounts.contains k := fun k =>
    Table.contains_eq_of_map (hsame k)
  exact
    { distinct := h.distinct
      pins := by
        intro k r hr
        have hk := hsame k
        rw [show accounts.get? k = some r from hr, Option.map_some, eq_comm,
          Option.map_eq_some_iff] at hk
        obtain ⟨r', hr', hpins⟩ := hk
        rw [← hpins]
        exact h.pins hr'
      pinned := by
        intro k hk
        show accounts.contains k = true
        rw [hcontains]
        exact h.pinned hk
      stagedTransfer := h.stagedTransfer
      stagedEntry := h.stagedEntry
      transfer := by
        intro k t ht
        show accounts.contains _ = true ∧ accounts.contains _ = true
        rw [hcontains, hcontains]
        exact h.transfer ht
      entry := by
        intro k e he
        show accounts.contains _ = true
        rw [hcontains]
        exact h.entry he }

theorem modifyRow (h : b.Anchored) {f : Row → Row} (hf : ∀ r, (f r).pins = r.pins) :
    (b.modifyRow a f).Anchored := by
  refine h.of_accounts fun k => ?_
  rw [Table.get?_modify]
  by_cases hk : k = a
  · rw [if_pos hk, Option.map_map]
    exact congrArg (fun g => Option.map g (b.accounts.get? k)) (funext hf)
  · rw [if_neg hk]

/-- Pinning an account that exists. -/
theorem addPin (h : b.Anchored) (ho : b.IsOpen o) (ha : b.accounts.contains a = true) :
    (b.addPin o a).Anchored := by
  have hcount := count_pinned_addPin a h.distinct ho
  have hwork := work_addPin a ho
  exact
    { distinct := by
        unfold Bank.addPin
        rw [keys_modifyWork]
        exact h.distinct
      pins := by
        intro k r hr
        rw [hcount]
        rcases Table.get?_modify_eq_some.1 hr with ⟨hk, r', hr', rfl⟩ | ⟨hk, hr⟩
        · rw [if_pos hk, ← h.pins hr']
        · rw [if_neg hk, ← h.pins hr, Nat.add_zero]
      pinned := by
        intro k hk
        rw [contains_addPin]
        by_cases hka : k = a
        · rwa [hka]
        · have hpos := List.count_pos_iff.2 hk
          rw [hcount, if_neg hka, Nat.add_zero] at hpos
          exact h.pinned (List.count_pos_iff.1 hpos)
      stagedTransfer := by
        intro p t ht
        rw [hwork] at ht ⊢
        by_cases hp : p = o
        · subst hp
          rw [Function.update_self] at ht ⊢
          obtain ⟨hs, htg⟩ := h.stagedTransfer ht
          exact ⟨List.mem_append_left _ hs, List.mem_append_left _ htg⟩
        · rw [Function.update_of_ne hp] at ht ⊢
          exact h.stagedTransfer ht
      stagedEntry := by
        intro p e he
        rw [hwork] at he ⊢
        by_cases hp : p = o
        · subst hp
          rw [Function.update_self] at he ⊢
          exact List.mem_append_left _ (h.stagedEntry he)
        · rw [Function.update_of_ne hp] at he ⊢
          exact h.stagedEntry he
      transfer := by
        intro k t ht
        simpa using h.transfer ht
      entry := by
        intro k e he
        simpa using h.entry he }

/-- Changing a unit of work without touching its pins; whatever it stages is pinned. -/
theorem modifyWork (h : b.Anchored) (ho : b.IsOpen o) {f : Work → Work}
    (hpinned : (f (b.work o)).pinned = (b.work o).pinned)
    (htransfers : ∀ t ∈ (f (b.work o)).transfers,
      t.source ∈ (b.work o).pinned ∧ t.target ∈ (b.work o).pinned)
    (hentries : ∀ e ∈ (f (b.work o)).entries, e.account ∈ (b.work o).pinned) :
    (b.modifyWork o f).Anchored := by
  have hcount : ∀ k, (b.modifyWork o f).pinned.count k = b.pinned.count k := by
    intro k
    have hk := count_pinned_modifyWork h.distinct ho f k
    rw [hpinned] at hk
    omega
  exact
    { distinct := by
        rw [keys_modifyWork]
        exact h.distinct
      pins := by
        intro k r hr
        rw [hcount]
        exact h.pins hr
      pinned := by
        intro k hk
        have hpos := List.count_pos_iff.2 hk
        rw [hcount] at hpos
        exact h.pinned (List.count_pos_iff.1 hpos)
      stagedTransfer := by
        intro p t ht
        rw [work_modifyWork ho] at ht ⊢
        by_cases hp : p = o
        · subst hp
          rw [Function.update_self] at ht ⊢
          rw [hpinned]
          exact htransfers t ht
        · rw [Function.update_of_ne hp] at ht ⊢
          exact h.stagedTransfer ht
      stagedEntry := by
        intro p e he
        rw [work_modifyWork ho] at he ⊢
        by_cases hp : p = o
        · subst hp
          rw [Function.update_self] at he ⊢
          rw [hpinned]
          exact hentries e he
        · rw [Function.update_of_ne hp] at he ⊢
          exact h.stagedEntry he
      transfer := h.transfer
      entry := h.entry }

/-- Ending a unit of work: its pins go, and what it staged may become committed. -/
theorem close (h : b.Anchored) {b' : Bank}
    (hworks : b'.works = b.works.filter fun x => x.1 ≠ o)
    (haccounts : ∀ k, (b'.accounts.get? k).map Row.pins =
      (b.accounts.get? k).map fun r => r.pins - (b.work o).pinned.count k)
    (htransfers : ∀ k t, b'.transfers.get? k = some t →
      t ∈ (b.work o).transfers ∨ b.transfers.get? k = some t)
    (hentries : ∀ k e, b'.entries.get? k = some e →
      e ∈ (b.work o).entries ∨ b.entries.get? k = some e) :
    b'.Anchored := by
  have hcontains : ∀ k, b'.accounts.contains k = b.accounts.contains k := fun k =>
    Table.contains_eq_of_map (haccounts k)
  have hwork : b'.work = update b.work o {} := by
    rw [← work_closeWork]
    funext p
    unfold Bank.work Bank.work?
    rw [hworks]
    rfl
  have hcount : ∀ k, b'.pinned.count k + (b.work o).pinned.count k = b.pinned.count k := by
    intro k
    have hk := count_pinned_filter (o := o) h.distinct k
    unfold Bank.pinned at hk ⊢
    rwa [hworks]
  exact
    { distinct := by
        rw [hworks]
        exact h.distinct.sublist (List.filter_sublist.map _)
      pins := by
        intro k r hr
        have hk := haccounts k
        rw [hr, Option.map_some, eq_comm, Option.map_eq_some_iff] at hk
        obtain ⟨r', hr', hpins⟩ := hk
        have hb := h.pins hr'
        have hc := hcount k
        omega
      pinned := by
        intro k hk
        rw [hcontains]
        -- Pins are only taken away, so what is still pinned was pinned before.
        have hpos := List.count_pos_iff.2 hk
        have hc := hcount k
        exact h.pinned (List.count_pos_iff.1 (by omega))
      stagedTransfer := by
        intro p t ht
        rw [hwork] at ht ⊢
        have hp : p ≠ o := fun e => by simp [e] at ht
        rw [Function.update_of_ne hp] at ht ⊢
        exact h.stagedTransfer ht
      stagedEntry := by
        intro p e he
        rw [hwork] at he ⊢
        have hp : p ≠ o := fun e => by simp [e] at he
        rw [Function.update_of_ne hp] at he ⊢
        exact h.stagedEntry he
      transfer := by
        intro k t ht
        rw [hcontains, hcontains]
        -- What becomes committed was staged, and its accounts were pinned for that.
        rcases htransfers k t ht with ht | ht
        · obtain ⟨hs, htg⟩ := h.stagedTransfer ht
          exact ⟨h.pinned (pinned_of_work hs), h.pinned (pinned_of_work htg)⟩
        · exact h.transfer ht
      entry := by
        intro k e he
        rw [hcontains]
        rcases hentries k e he with he | he
        · exact h.pinned (pinned_of_work (h.stagedEntry he))
        · exact h.entry he }

/-- Opening an account. -/
theorem insert (h : b.Anchored) (hfresh : b.accounts.get? a = none) (account : Account) :
    ({ b with accounts := b.accounts.insert a ⟨account, account, 0⟩ } : Bank).Anchored := by
  -- A number that is not in use is not pinned either.
  have hnot : a ∉ b.pinned := fun hmem => by
    have hused := h.pinned hmem
    rw [Table.contains_eq_false_iff.2 hfresh] at hused
    cases hused
  exact
    { distinct := h.distinct
      pins := by
        intro k r hr
        rcases Table.get?_insert_eq_some.1 hr with ⟨rfl, rfl⟩ | ⟨-, hr⟩
        · exact (List.count_eq_zero.2 hnot).symm
        · exact h.pins hr
      pinned := by
        intro k hk
        simp [h.pinned hk]
      stagedTransfer := h.stagedTransfer
      stagedEntry := h.stagedEntry
      transfer := by
        intro k t ht
        obtain ⟨hs, htg⟩ := h.transfer ht
        simp [hs, htg]
      entry := by
        intro k e he
        simp [h.entry he] }

/-- Deleting an account that nothing names. -/
theorem erase (h : b.Anchored) (hr : b.accounts.get? a = some r) (hpins : r.pins = 0)
    (hfree : ¬ b.isReferenced a = true) :
    ({ b with accounts := b.accounts.erase a } : Bank).Anchored := by
  have hcount : b.pinned.count a = 0 := by rw [← h.pins hr, hpins]
  have hnot : a ∉ b.pinned := List.count_eq_zero.1 hcount
  have hcontains : ∀ k, k ≠ a → b.accounts.contains k = true →
      (b.accounts.erase a).contains k = true := by
    intro k hk hc
    unfold Table.contains
    rwa [Table.get?_erase, if_neg hk]
  obtain ⟨hentries, htransfers⟩ := not_or.1 (isReferenced_iff.not.1 hfree)
  exact
    { distinct := h.distinct
      pins := by
        intro k r' hr'
        exact h.pins (Table.get?_erase_eq_some.1 hr').2
      pinned := by
        intro k hk
        exact hcontains k (fun e => hnot (e ▸ hk)) (h.pinned hk)
      stagedTransfer := h.stagedTransfer
      stagedEntry := h.stagedEntry
      transfer := by
        intro k t ht
        obtain ⟨hs, htg⟩ := h.transfer ht
        exact ⟨hcontains _ (fun e => htransfers ⟨k, t, ht, .inl e⟩) hs,
          hcontains _ (fun e => htransfers ⟨k, t, ht, .inr e⟩) htg⟩
      entry := by
        intro k e he
        exact hcontains _ (fun e' => hentries ⟨k, e, he, e'⟩) (h.entry he) }

end Anchored

end Bank

end DoubleEntry
