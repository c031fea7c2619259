import DoubleEntry.Proofs.Locking
set_option autoImplicit false

/-! # Committed versions and working copies

A row has a committed version and a working copy, and whoever has locked it remembers a third
balance, the one that the row had then. `Settled` says how the three stand to each other: they
differ at most in the balance, and only while somebody has locked the row; the remembered balance is
the committed one. So publishing a working copy loses nothing, and restoring the remembered balance
gives the committed version back.
-/

namespace DoubleEntry

open Function (update)

/-- **Rows are settled.** `held o` are the rows that an owner has locked. -/
structure Settled (accounts : Table Row) (held : Owner → List Hold) : Prop where
  stamped : ∀ {a r}, accounts.get? a = some r →
    r.committed.id = a ∧ r.working = { r.committed with balance := r.working.balance }
  prior : ∀ {o h}, h ∈ held o →
    ∃ r, accounts.get? h.account = some r ∧ r.committed.balance = h.prior
  clean : ∀ {a r}, accounts.get? a = some r → (∀ o, a ∉ (held o).map Hold.account) →
    r.working = r.committed

/-- What a row holds, without the count of its pins. -/
def Row.versions (r : Row) : Account × Account := (r.committed, r.working)

/-- Sets both versions of a row. -/
def Row.set (account : Account) (r : Row) : Row :=
  { r with committed := account, working := account }

/-- Sets the working copy of a row. -/
def Row.draft (account : Account) (r : Row) : Row := { r with working := account }

theorem Row.exists_of_versions {r' : Row} {row : Option Row}
    (h : (some r').map Row.versions = row.map Row.versions) :
    ∃ r, row = some r ∧ r.committed = r'.committed ∧ r.working = r'.working := by
  rw [Option.map_some, eq_comm, Option.map_eq_some_iff] at h
  obtain ⟨r, hr, hv⟩ := h
  exact ⟨r, hr, (Prod.mk.inj hv).1, (Prod.mk.inj hv).2⟩

namespace Settled

variable {accounts accounts' : Table Row} {held : Owner → List Hold} {o : Owner} {a : Int} {r : Row}

/-- Pins do not matter. -/
theorem of_versions (h : Settled accounts held)
    (heq : ∀ k, (accounts'.get? k).map Row.versions = (accounts.get? k).map Row.versions) :
    Settled accounts' held := by
  have back : ∀ {k r'}, accounts'.get? k = some r' →
      ∃ r, accounts.get? k = some r ∧ r.committed = r'.committed ∧ r.working = r'.working := by
    intro k r' hr'
    refine Row.exists_of_versions ?_
    rw [← hr', heq]
  exact
    { stamped := by
        intro k r' hr'
        obtain ⟨r, hr, hc, hw⟩ := back hr'
        have hstamp := h.stamped hr
        rwa [hc, hw] at hstamp
      prior := by
        intro p g hg
        obtain ⟨r, hr, hprior⟩ := h.prior hg
        have hk := heq g.account
        rw [hr] at hk
        obtain ⟨r', hr', hc, -⟩ := Row.exists_of_versions hk.symm
        exact ⟨r', hr', hc ▸ hprior⟩
      clean := by
        intro k r' hr' hfree
        obtain ⟨r, hr, hc, hw⟩ := back hr'
        rw [← hc, ← hw]
        exact h.clean hr hfree }

/-- The balance that a row is given back is the committed one. -/
theorem restored_eq (h : Settled accounts held) (hn : ((held o).map Hold.account).Nodup)
    (hr : accounts.get? a = some r) (ha : a ∈ (held o).map Hold.account) :
    Hold.restored (held o) a r.working = r.committed := by
  obtain ⟨g, hg, rfl⟩ := List.mem_map.1 ha
  obtain ⟨r', hr', hprior⟩ := h.prior hg
  rw [hr] at hr'
  obtain rfl := Option.some.inj hr'
  have hstamp := (h.stamped hr).2
  unfold Hold.restored
  rw [Hold.find?_of_mem hn hg]
  dsimp only
  rw [← hprior, hstamp]

theorem restored_of_not_mem {held : List Hold} (working : Account)
    (ha : a ∉ held.map Hold.account) : Hold.restored held a working = working := by
  have hnone : (held.find? fun g => g.account = a) = none := by
    rw [List.find?_eq_none]
    intro g hg e
    exact ha (List.mem_map.2 ⟨g, hg, of_decide_eq_true e⟩)
  unfold Hold.restored
  rw [hnone]

/-- Adjusting the working copy of a row that somebody has locked. -/
theorem adjust (h : Settled accounts held) (hr : accounts.get? a = some r)
    (ha : a ∈ (held o).map Hold.account) (balance : Int) :
    Settled (accounts.modify a (Row.draft { r.working with balance })) held where
  stamped := by
    intro k r' hr'
    rcases Table.get?_modify_eq_some.1 hr' with ⟨rfl, r₀, hr₀, rfl⟩ | ⟨-, hr'⟩
    · obtain rfl := Option.some.inj (hr.symm.trans hr₀)
      obtain ⟨hid, hstamp⟩ := h.stamped hr
      refine ⟨hid, ?_⟩
      dsimp only [Row.draft]
      rw [hstamp]
    · exact h.stamped hr'
  prior := by
    intro p g hg
    obtain ⟨r', hr', hprior⟩ := h.prior hg
    rw [Table.get?_modify]
    by_cases hk : g.account = a
    · rw [if_pos hk, hr']
      exact ⟨Row.draft { r.working with balance } r', rfl, hprior⟩
    · rw [if_neg hk]
      exact ⟨r', hr', hprior⟩
  clean := by
    intro k r' hr' hfree
    rcases Table.get?_modify_eq_some.1 hr' with ⟨rfl, -⟩ | ⟨-, hr'⟩
    · exact absurd ha (hfree o)
    · exact h.clean hr' hfree

/-- Locking a row that nobody has locked. -/
theorem hold (h : Settled accounts held) (hr : accounts.get? a = some r)
    (hfree : ∀ p, a ∉ (held p).map Hold.account) :
    Settled accounts (update held o (held o ++ [⟨a, r.working.balance⟩])) where
  stamped := h.stamped
  prior := by
    intro p g hg
    by_cases hp : p = o
    · subst hp
      rw [Function.update_self, List.mem_append, List.mem_singleton] at hg
      rcases hg with hg | rfl
      · exact h.prior hg
      · -- Nobody had locked the row, so its working copy was the committed version.
        exact ⟨r, hr, by rw [h.clean hr hfree]⟩
    · rw [Function.update_of_ne hp] at hg
      exact h.prior hg
  clean := by
    intro k r' hr' hfree'
    refine h.clean hr' fun p hp => hfree' p ?_
    by_cases hpo : p = o
    · subst hpo
      rw [Function.update_self, List.map_append, List.mem_append]
      exact .inl hp
    · rwa [Function.update_of_ne hpo]

/-- Ending a unit of work: each row that it had locked is left with one version, which differs from
the committed one at most in the balance, and every other row is left as it was. -/
theorem unlock (h : Settled accounts held)
    (hdisjoint : ∀ p, p ≠ o → ∀ k ∈ (held p).map Hold.account, k ∉ (held o).map Hold.account)
    {left : Int → Row → Row}
    (hin : ∀ {k r}, accounts.get? k = some r → k ∈ (held o).map Hold.account →
      (left k r).working = (left k r).committed ∧
        ∃ balance, (left k r).committed = { r.committed with balance })
    (hout : ∀ {k r}, k ∉ (held o).map Hold.account → (left k r).versions = r.versions) :
    Settled (accounts.collect fun k r => some (left k r)) (update held o []) where
  stamped := by
    intro k r' hr'
    obtain ⟨r, hr, hleft⟩ := Table.get?_collect_eq_some.1 hr'
    obtain rfl := Option.some.inj hleft
    obtain ⟨hid, hstamp⟩ := h.stamped hr
    by_cases hk : k ∈ (held o).map Hold.account
    · obtain ⟨hw, balance, hc⟩ := hin hr hk
      rw [hw, hc]
      exact ⟨hid, rfl⟩
    · obtain ⟨hc, hw⟩ := Prod.mk.inj (hout (r := r) hk)
      rw [hc, hw]
      exact ⟨hid, hstamp⟩
  prior := by
    intro p g hg
    have hp : p ≠ o := fun e => by simp [e] at hg
    rw [Function.update_of_ne hp] at hg
    obtain ⟨r, hr, hprior⟩ := h.prior hg
    have hnot := hdisjoint p hp g.account (List.mem_map.2 ⟨g, hg, rfl⟩)
    obtain ⟨hc, -⟩ := Prod.mk.inj (hout (r := r) hnot)
    exact ⟨left g.account r, by simp [hr], hc ▸ hprior⟩
  -- A row that the owner had locked is clean now, and another one was if nobody else has it.
  clean := by
    intro k r' hr' hfree
    obtain ⟨r, hr, hleft⟩ := Table.get?_collect_eq_some.1 hr'
    obtain rfl := Option.some.inj hleft
    by_cases hk : k ∈ (held o).map Hold.account
    · exact (hin hr hk).1
    · obtain ⟨hc, hw⟩ := Prod.mk.inj (hout (r := r) hk)
      rw [hc, hw]
      refine h.clean hr fun p hp => ?_
      by_cases hpo : p = o
      · exact hk (hpo ▸ hp)
      · exact hfree p (by rwa [Function.update_of_ne hpo])

/-- Opening an account. -/
theorem insert (h : Settled accounts held) (hfresh : accounts.get? a = none) {account : Account}
    (hid : account.id = a) (pins : Nat) :
    Settled (accounts.insert a ⟨account, account, pins⟩) held where
  stamped := by
    intro k r' hr'
    rcases Table.get?_insert_eq_some.1 hr' with ⟨rfl, rfl⟩ | ⟨-, hr'⟩
    · exact ⟨hid, rfl⟩
    · exact h.stamped hr'
  prior := by
    intro p g hg
    obtain ⟨r', hr', hprior⟩ := h.prior hg
    have hk : g.account ≠ a := fun e => by simp [e, hfresh] at hr'
    exact ⟨r', by simpa [hk] using hr', hprior⟩
  clean := by
    intro k r' hr' hfree
    rcases Table.get?_insert_eq_some.1 hr' with ⟨rfl, rfl⟩ | ⟨-, hr'⟩
    · rfl
    · exact h.clean hr' hfree

/-- Setting the balance of a row that nobody has locked. -/
theorem set (h : Settled accounts held) (hr : accounts.get? a = some r)
    (hfree : ∀ p, a ∉ (held p).map Hold.account) (balance : Int) :
    Settled (accounts.modify a (Row.set { r.working with balance })) held where
  stamped := by
    intro k r' hr'
    rcases Table.get?_modify_eq_some.1 hr' with ⟨rfl, r₀, -, rfl⟩ | ⟨-, hr'⟩
    · obtain ⟨hid, hstamp⟩ := h.stamped hr
      refine ⟨?_, rfl⟩
      dsimp only [Row.set]
      rw [hstamp]
      exact hid
    · exact h.stamped hr'
  prior := by
    intro p g hg
    obtain ⟨r', hr', hprior⟩ := h.prior hg
    have hk : g.account ≠ a := fun e => hfree p (e ▸ List.mem_map.2 ⟨g, hg, rfl⟩)
    exact ⟨r', by simpa [Table.get?_modify, hk] using hr', hprior⟩
  clean := by
    intro k r' hr' hfree'
    rcases Table.get?_modify_eq_some.1 hr' with ⟨rfl, r₀, -, rfl⟩ | ⟨-, hr'⟩
    · rfl
    · exact h.clean hr' hfree'

/-- Deleting a row that nobody has locked. -/
theorem erase (h : Settled accounts held) (hfree : ∀ p, a ∉ (held p).map Hold.account) :
    Settled (accounts.erase a) held where
  stamped := by
    intro k r' hr'
    exact h.stamped (Table.get?_erase_eq_some.1 hr').2
  prior := by
    intro p g hg
    obtain ⟨r', hr', hprior⟩ := h.prior hg
    have hk : g.account ≠ a := fun e => hfree p (e ▸ List.mem_map.2 ⟨g, hg, rfl⟩)
    exact ⟨r', by simpa [hk] using hr', hprior⟩
  clean := by
    intro k r' hr' hfree'
    exact h.clean (Table.get?_erase_eq_some.1 hr').2 hfree'

end Settled

end DoubleEntry
