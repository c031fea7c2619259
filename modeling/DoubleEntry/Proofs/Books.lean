import DoubleEntry.Proofs.Effects
import DoubleEntry.Proofs.Runs
set_option autoImplicit false

/-! # Balanced books

The books of a ledger are balanced when the entries are the two sides of the transfers and each
balance is the opening balance plus the entries of the account (`Ledger.Balanced`). Opening an
account, deleting one that nothing names and committing a transfer keep the books balanced; setting
a balance would not.
-/

namespace DoubleEntry

open scoped List

namespace Table

variable {α : Type} {t : Table α} {k : Int} {a old : α}

theorem insert_erase (t : Table α) (k : Int) (a : α) : (t.erase k).insert k a = t.insert k a := by
  apply ext
  intro i
  by_cases hi : i = k <;> simp [hi]

/-- A row under a new key adds its share to a sum. -/
theorem sum_insert_of_new (f : α → Int) (h : t.get? k = none) (a : α) :
    ((t.insert k a).toList.map f).sum = f a + (t.toList.map f).sum := by
  rw [((toList_insert_perm h a).map f).sum_eq, List.map_cons, List.sum_cons]

/-- A row that is removed takes its share from a sum. -/
theorem sum_erase (f : α → Int) (h : t.get? k = some a) :
    (t.toList.map f).sum = f a + ((t.erase k).toList.map f).sum := by
  rw [((toList_erase_perm h).map f).sum_eq, List.map_cons, List.sum_cons]

/-- A row in place of another changes a sum by the difference. -/
theorem sum_insert_of_old (f : α → Int) (h : t.get? k = some old) (a : α) :
    ((t.insert k a).toList.map f).sum = (t.toList.map f).sum + (f a - f old) := by
  have hnone : (t.erase k).get? k = none := by simp
  rw [← insert_erase, sum_insert_of_new f hnone, sum_erase f h]
  omega

end Table

/-! ## The books of a ledger -/

/-- What an entry adds to which account. -/
def Entry.side (e : Entry) : Int × Int := (e.account, e.amount)

/-- The two sides of a transfer: what it takes from the source and what it gives to the target. -/
def Transfer.sides (t : Transfer) : List (Int × Int) :=
  [(t.source, -t.amount), (t.target, t.amount)]

/-- Notes the balance with which an account is opened, as long as the account exists. -/
def Effect.noteOpening (openings : Table Int) : Effect → Table Int
  | .opened n answer => openings.insert answer.id n.balance
  | .deleted a => openings.erase a
  | .updated .. | .committed _ => openings

/-- The opening balances of the accounts that exist after some effects. -/
def Effect.openings (es : List Effect) : Table Int := es.foldl noteOpening .empty

/-- An effect of what a bank does by itself: an account is opened or deleted, or a transfer is
carried out. No balance is set, and no unit of work of somebody else is committed. -/
def Effect.Booked : Effect → Prop
  | .opened .. | .deleted _ => True
  | .updated .. => False
  | .committed ds => ∃ n receipt, ds = Receipt.deeds n receipt ∧ receipt.Fits n

namespace Ledger

/-- The sum of the amounts of the entries of an account. -/
def entrySum (l : Ledger) (a : Int) : Int :=
  ((l.entries.toList.filter fun e => e.account = a).map Entry.amount).sum

/-- The sum of all balances. -/
def total (l : Ledger) : Int := (l.accounts.toList.map Account.balance).sum

/-- **The books are balanced,** given the opening balances. -/
structure Balanced (l : Ledger) (openings : Table Int) : Prop where
  /-- The entries are the two sides of the transfers, each as often as it occurs. -/
  sides : (l.entries.toList.map Entry.side).Perm (l.transfers.toList.flatMap Transfer.sides)
  /-- Every entry names an account that exists. -/
  named : ∀ e ∈ l.entries.toList, l.accounts.contains e.account = true
  /-- The accounts that exist are those with an opening balance. -/
  opened : ∀ a, openings.contains a = l.accounts.contains a
  balance : ∀ {a account}, l.accounts.get? a = some account →
    ∃ opening, openings.get? a = some opening ∧ account.balance = opening + l.entrySum a
  total : l.total = openings.toList.sum

variable {nonNegative : Bool} {l : Ledger} {openings : Table Int} {a : Int} {ds : List Deed}
  {n : NewTransfer} {receipt : Receipt}

theorem balanced_empty : ({} : Ledger).Balanced .empty where
  sides := .refl _
  named := by simp [Table.toList, Table.empty]
  opened _ := rfl
  balance ha := nomatch ha
  total := rfl

/-- An account that no entry names has no entries to add up. -/
theorem entrySum_of_not_named (h : ∀ e ∈ l.entries.toList, e.account ≠ a) : l.entrySum a = 0 := by
  unfold entrySum
  rw [List.filter_eq_nil_iff.2 fun e he => by simpa using h e he]
  rfl

theorem sum_eq_map_id (t : Table Int) : t.toList.sum = (t.toList.map id).sum := by
  rw [List.map_id]

/-- Opening an account keeps the books balanced. -/
theorem Balanced.open (h : l.Balanced openings) {m : NewAccount} {answer : Account}
    (ha : l.Allows nonNegative (.opened m answer)) :
    (l.apply (.opened m answer)).Balanced (openings.insert answer.id m.balance) where
  sides := h.sides
  named e he := by
    show (l.accounts.insert answer.id answer).contains e.account = true
    rw [Table.contains_insert, h.named e he, Bool.or_true]
  opened k := by
    show _ = (l.accounts.insert answer.id answer).contains k
    rw [Table.contains_insert, Table.contains_insert, h.opened]
  balance := by
    intro k account hk
    rcases Table.get?_insert_eq_some.1 hk with ⟨rfl, rfl⟩ | ⟨hka, hk⟩
    · -- No entry names an account before it is opened.
      have hnew : l.accounts.contains answer.id = false := Table.contains_eq_false_iff.2 ha.1
      have hnone : l.entrySum answer.id = 0 := entrySum_of_not_named fun e he hek => by
        rw [← hek, h.named e he] at hnew
        cases hnew
      refine ⟨m.balance, by simp, ?_⟩
      show answer.balance = m.balance + l.entrySum answer.id
      rw [hnone, ha.2.1, add_zero]
    · obtain ⟨opening, hopening, hbalance⟩ := h.balance hk
      exact ⟨opening, Table.get?_insert_eq_some.2 (.inr ⟨hka, hopening⟩), hbalance⟩
  total := by
    have hnew : openings.get? answer.id = none := by
      rw [← Table.contains_eq_false_iff, h.opened, Table.contains_eq_false_iff]
      exact ha.1
    show ((l.accounts.insert answer.id answer).toList.map Account.balance).sum = _
    rw [Table.sum_insert_of_new _ ha.1, sum_eq_map_id, Table.sum_insert_of_new id hnew, ha.2.1,
      ← sum_eq_map_id, ← h.total]
    rfl

/-- Deleting an account that nothing names keeps the books balanced. -/
theorem Balanced.delete (h : l.Balanced openings) (ha : l.Allows nonNegative (.deleted a)) :
    (l.apply (.deleted a)).Balanced (openings.erase a) := by
  obtain ⟨hcontains, hrefers⟩ := ha
  obtain ⟨account, haccount⟩ := Table.contains_iff.1 hcontains
  obtain ⟨opening, hopening, hbalance⟩ := h.balance haccount
  have hnamed : ∀ e ∈ l.entries.toList, e.account ≠ a := by
    intro e he hea
    obtain ⟨k, hk⟩ := Table.mem_toList_iff.1 he
    exact hrefers (.inl ⟨k, e, hk, hea⟩)
  exact
    { sides := h.sides
      named := by
        intro e he
        obtain ⟨account', haccount'⟩ := Table.contains_iff.1 (h.named e he)
        exact Table.contains_iff.2
          ⟨account', Table.get?_erase_eq_some.2 ⟨hnamed e he, haccount'⟩⟩
      opened := by
        intro k
        show _ = (l.accounts.erase a).contains k
        have hk := h.opened k
        unfold Table.contains at hk ⊢
        rw [Table.get?_erase, Table.get?_erase]
        by_cases hka : k = a
        · rw [if_pos hka, if_pos hka]
          rfl
        · rw [if_neg hka, if_neg hka]
          exact hk
      balance := by
        intro k account' hk
        obtain ⟨hka, hk⟩ := Table.get?_erase_eq_some.1 hk
        obtain ⟨opening', hopening', hbalance'⟩ := h.balance hk
        exact ⟨opening', Table.get?_erase_eq_some.2 ⟨hka, hopening'⟩, hbalance'⟩
      total := by
        -- The account leaves with the balance with which it came.
        have hsum := entrySum_of_not_named hnamed
        have hl : l.total = account.balance + (l.apply (.deleted a)).total :=
          Table.sum_erase Account.balance haccount
        have ho : openings.toList.sum = opening + (openings.erase a).toList.sum := by
          rw [sum_eq_map_id, Table.sum_erase id hopening, sum_eq_map_id (openings.erase a)]
          rfl
        have ht := h.total
        omega }

/-! ## Committing a transfer -/

/-- Deeds change the sum of all balances by what they add to balances. -/
theorem total_enactAll (h : l.AdmitsAll nonNegative ds) :
    (l.enactAll ds).total = l.total + (ds.map Deed.delta).sum := by
  induction ds generalizing l with
  | nil => simp
  | cons d ds ih =>
      obtain ⟨hd, hds⟩ := h
      rw [enactAll_cons, ih hds, List.map_cons, List.sum_cons, ← add_assoc]
      congr 1
      cases d with
      | adjustment b delta answer =>
          obtain ⟨account, hb, rfl, -⟩ := hd
          have hsum : (l.enact (.adjustment b delta _)).total = l.total + _ :=
            Table.sum_insert_of_old Account.balance hb
              { account with balance := account.balance + delta }
          rw [hsum]
          show _ = l.total + delta
          dsimp only
          omega
      | _ => exact (add_zero _).symm

/-- The entries of a transfer. -/
theorem entries_enactAll_deeds (h : l.New (receipt.deeds n)) :
    (l.enactAll (receipt.deeds n)).entries.toList.Perm
      (receipt.credit :: receipt.debit :: l.entries.toList) := by
  have hids : [receipt.debit.id, receipt.credit.id].Nodup := h.entries
  have hdebit : l.entries.get? receipt.debit.id = none :=
    h.entry _ (by simp [Receipt.deeds, Deed.entry?])
  have hcredit :
      (l.entries.insert receipt.debit.id receipt.debit).get? receipt.credit.id = none := by
    rw [Table.get?_insert, if_neg fun e => by simp [e] at hids]
    exact h.entry _ (by simp [Receipt.deeds, Deed.entry?])
  exact (Table.toList_insert_perm hcredit _).trans ((Table.toList_insert_perm hdebit _).cons _)

/-- The transfer of a transfer that was carried out. -/
theorem transfers_enactAll_deeds (h : l.New (receipt.deeds n)) :
    (l.enactAll (receipt.deeds n)).transfers.toList.Perm
      (receipt.transfer :: l.transfers.toList) :=
  Table.toList_insert_perm (h.transfer _ (by simp [Receipt.deeds, Deed.transfer?])) _

/-- What a transfer adds to a balance is what its entries say. -/
theorem change_deeds (n : NewTransfer) (receipt : Receipt) (a : Int) :
    ((receipt.deeds n).map (Deed.change a)).sum =
      (if n.target = a then n.amount else 0) + if n.source = a then -n.amount else 0 := by
  unfold Receipt.deeds NewTransfer.adjustments
  by_cases h : n.source < n.target
  · simp [h, NewTransfer.debit, NewTransfer.credit, Deed.change, add_comm]
  · simp [h, NewTransfer.debit, NewTransfer.credit, Deed.change]

/-- A transfer takes from one account what it gives to the other. -/
theorem delta_deeds (n : NewTransfer) (receipt : Receipt) :
    ((receipt.deeds n).map Deed.delta).sum = 0 := by
  unfold Receipt.deeds NewTransfer.adjustments
  by_cases h : n.source < n.target
  · simp [h, NewTransfer.debit, NewTransfer.credit, Deed.delta]
  · simp [h, NewTransfer.debit, NewTransfer.credit, Deed.delta]

theorem entrySum_enactAll_deeds (h : l.New (receipt.deeds n)) (hfits : receipt.Fits n) (a : Int) :
    (l.enactAll (receipt.deeds n)).entrySum a =
      l.entrySum a + ((receipt.deeds n).map (Deed.change a)).sum := by
  obtain ⟨-, ⟨hdebit, hdamount⟩, hcredit, hcamount⟩ := hfits
  have hsum := (((entries_enactAll_deeds h).filter fun e => e.account = a).map Entry.amount).sum_eq
  rw [change_deeds]
  unfold entrySum
  rw [hsum, List.filter_cons, List.filter_cons, hdebit, hcredit]
  -- Both entries count if a transfer is made from an account to itself.
  by_cases hs : n.source = a <;> by_cases ht : n.target = a <;>
    simp [hs, ht, hdamount, hcamount] <;> omega

/-- Committing a transfer keeps the books balanced. -/
theorem Balanced.transfer (h : l.Balanced openings)
    (ha : l.Allows nonNegative (.committed (receipt.deeds n))) (hfits : receipt.Fits n) :
    (l.apply (.committed (receipt.deeds n))).Balanced openings := by
  obtain ⟨hadmits, hnew⟩ := ha
  have hentries := entries_enactAll_deeds hnew
  have hcontains := contains_enactAll hadmits
  exact
    { sides := by
        -- The two new entries are the two sides of the new transfer.
        have hsides : receipt.transfer.sides = [receipt.debit.side, receipt.credit.side] := by
          obtain ⟨⟨hs, ht, hamount⟩, ⟨hd, hdamount⟩, hc, hcamount⟩ := hfits
          simp [Transfer.sides, Entry.side, hs, ht, hamount, hd, hdamount, hc, hcamount]
        have htransfers := (transfers_enactAll_deeds hnew).flatMap_right Transfer.sides
        rw [List.flatMap_cons, hsides] at htransfers
        calc (l.enactAll (receipt.deeds n)).entries.toList.map Entry.side
            ~ receipt.credit.side :: receipt.debit.side :: l.entries.toList.map Entry.side :=
              hentries.map Entry.side
          _ ~ receipt.debit.side :: receipt.credit.side :: l.entries.toList.map Entry.side :=
              .swap _ _ _
          _ ~ receipt.debit.side :: receipt.credit.side ::
                l.transfers.toList.flatMap Transfer.sides := (h.sides.cons _).cons _
          _ ~ (l.enactAll (receipt.deeds n)).transfers.toList.flatMap Transfer.sides :=
              htransfers.symm
      named := by
        intro e he
        show (l.enactAll (receipt.deeds n)).accounts.contains e.account = true
        rw [hcontains]
        rcases List.mem_cons.1 (hentries.mem_iff.1 he) with rfl | he
        · exact hadmits.2.2.1
        · rcases List.mem_cons.1 he with rfl | he
          · exact hadmits.2.1
          · exact h.named e he
      opened := by
        intro a
        show _ = (l.enactAll (receipt.deeds n)).accounts.contains a
        rw [hcontains]
        exact h.opened a
      balance := by
        intro a account ha
        replace ha : (l.enactAll (receipt.deeds n)).accounts.get? a = some account := ha
        rw [get?_enactAll hadmits, Option.map_eq_some_iff] at ha
        obtain ⟨before, hbefore, rfl⟩ := ha
        obtain ⟨opening, hopening, hbalance⟩ := h.balance hbefore
        refine ⟨opening, hopening, ?_⟩
        -- The balance changes by what the new entries of the account say.
        calc before.balance + ((receipt.deeds n).map (Deed.change a)).sum
            = opening + l.entrySum a + ((receipt.deeds n).map (Deed.change a)).sum := by
              rw [hbalance]
          _ = opening + (l.entrySum a + ((receipt.deeds n).map (Deed.change a)).sum) :=
              add_assoc _ _ _
          _ = opening + (l.enactAll (receipt.deeds n)).entrySum a := by
              rw [entrySum_enactAll_deeds hnew hfits]
      total := by
        calc (l.enactAll (receipt.deeds n)).total
            = l.total + ((receipt.deeds n).map Deed.delta).sum := total_enactAll hadmits
          _ = l.total := by rw [delta_deeds, add_zero]
          _ = openings.toList.sum := h.total }

/-! ## Effects one after the other -/

variable {e : Effect} {es : List Effect}

/-- **An effect of what a bank does by itself keeps the books balanced.** -/
theorem Balanced.apply (h : l.Balanced openings) (ha : l.Allows nonNegative e) (hb : e.Booked) :
    (l.apply e).Balanced (e.noteOpening openings) := by
  cases e with
  | opened m answer => exact h.open ha
  | updated a balance answer => exact hb.elim
  | deleted a => exact h.delete ha
  | committed ds =>
      obtain ⟨n, receipt, rfl, hfits⟩ := hb
      exact h.transfer ha hfits

theorem Balanced.applyAll (h : l.Balanced openings) (ha : l.AllowsAll nonNegative es)
    (hb : ∀ e ∈ es, e.Booked) :
    (l.applyAll es).Balanced (es.foldl Effect.noteOpening openings) := by
  induction es generalizing l openings with
  | nil => exact h
  | cons e es ih =>
      exact ih (h.apply ha.1 (hb e List.mem_cons_self)) ha.2
        fun e he => hb e (List.mem_cons_of_mem _ he)

end Ledger

end DoubleEntry
