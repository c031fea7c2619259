import DoubleEntry.Proofs.Interleaving
import DoubleEntry.Proofs.Moves
set_option autoImplicit false

/-! # The ledger only grows

Many units of work draw numbers at a time, and what they make is committed in another order, or
never. Even so all rows that are ever made have different numbers (`Drawn`), and those in use are
some of them (`NumberedOnce`). A commit therefore adds its rows to the tables and overwrites none,
and what a reader has seen of a transfer or an entry stays (`Bank.Since`).
-/

namespace DoubleEntry

open Function (update update_self update_of_ne)

/-! ## Tables that only grow -/

namespace Table

variable {α : Type} {s t u : Table α} {id : α → Int} {l : List α}

/-- Every row of the one table is in the other, as it is. -/
def Persists (s t : Table α) : Prop := ∀ k x, s.get? k = some x → t.get? k = some x

theorem Persists.refl (t : Table α) : t.Persists t := fun _ _ h => h

theorem Persists.trans (h : s.Persists t) (h' : t.Persists u) : s.Persists u :=
  fun k x hk => h' k x (h k x hk)

theorem nodup_keys (t : Table α) : (t.rows.map Prod.fst).Nodup :=
  List.pairwise_map.2 (t.ordered.imp ne_of_lt)

/-- A table has at least the rows that persist in it. -/
theorem Persists.size_le (h : s.Persists t) : s.size ≤ t.size := by
  have hsub : s.rows ⊆ t.rows := fun x hx => mem_rows_iff.2 (h x.1 x.2 (mem_rows_iff.1 hx))
  exact (List.subperm_of_subset s.nodup_keys.of_map hsub).length_le

/-- Rows that are numbered by their keys have different numbers. -/
theorem nodup_toList (h : ∀ k x, t.get? k = some x → id x = k) : (t.toList.map id).Nodup := by
  have heq : t.toList.map id = t.rows.map Prod.fst := by
    rw [toList, List.map_map]
    exact List.map_congr_left fun x hx => h x.1 x.2 (mem_rows_iff.1 hx)
  rw [heq]
  exact t.nodup_keys

theorem persists_foldl_insert (hnew : ∀ x ∈ l, t.get? (id x) = none) :
    t.Persists (l.foldl (fun t x => t.insert (id x) x) t) := by
  intro k x hk
  rw [get?_foldl_insert_of_not_mem]
  · exact hk
  · intro hmem
    obtain ⟨y, hy, rfl⟩ := List.mem_map.1 hmem
    rw [hnew y hy] at hk
    cases hk

/-- Rows under different numbers are all put in. -/
theorem get?_foldl_insert_of_mem (hnodup : (l.map id).Nodup) {x : α} (hx : x ∈ l) :
    (l.foldl (fun t x => t.insert (id x) x) t).get? (id x) = some x := by
  induction l generalizing t with
  | nil => cases hx
  | cons y l ih =>
      obtain ⟨hy, hl⟩ := List.nodup_cons.1 hnodup
      rcases List.mem_cons.1 hx with rfl | hx
      · rw [List.foldl_cons, get?_foldl_insert_of_not_mem hy, get?_insert, if_pos rfl]
      · exact ih hl hx

/-- Rows under new numbers are added to those that are there. -/
theorem toList_foldl_insert_perm (hnodup : (l.map id).Nodup)
    (hnew : ∀ x ∈ l, t.get? (id x) = none) :
    (l.foldl (fun t x => t.insert (id x) x) t).toList.Perm (t.toList ++ l) := by
  induction l generalizing t with
  | nil => simp
  | cons x l ih =>
      obtain ⟨hx, hl⟩ := List.nodup_cons.1 hnodup
      have hrest : ∀ y ∈ l, (t.insert (id x) x).get? (id y) = none := by
        intro y hy
        have hne : ¬ id y = id x := fun e => hx (List.mem_map.2 ⟨y, hy, e⟩)
        rw [get?_insert, if_neg hne]
        exact hnew y (List.mem_cons_of_mem x hy)
      have hfirst := toList_insert_perm (hnew x List.mem_cons_self) x
      rw [List.foldl_cons]
      exact ((ih hl hrest).trans (hfirst.append_right l)).trans List.perm_middle.symm

theorem size_foldl_insert (hnodup : (l.map id).Nodup) (hnew : ∀ x ∈ l, t.get? (id x) = none) :
    (l.foldl (fun t x => t.insert (id x) x) t).size = t.size + l.length := by
  have hrows := (toList_foldl_insert_perm hnodup hnew).length_eq
  simpa [toList, size] using hrows

end Table

/-! ## Drawing numbers -/

/-- **Rows that are made draw their numbers in turn:** each has a larger number than those before
it, from the next number on. -/
structure Drawn {α : Type} (id : α → Int) (next next' : Int) (made : List α) : Prop where
  le : next ≤ next'
  ordered : made.Pairwise fun x y => id x < id y
  between : ∀ x ∈ made, next ≤ id x ∧ id x < next'

namespace Drawn

variable {α : Type} {id : α → Int} {next next' next'' : Int} {xs ys : List α} {x y : α}

theorem nil (h : next ≤ next') : Drawn id next next' [] := ⟨h, .nil, by simp⟩

theorem one (hx : id x = next) : Drawn id next (next + 1) [x] := by
  refine ⟨by omega, List.pairwise_singleton _ _, fun y hy => ?_⟩
  rw [List.mem_singleton.1 hy]
  omega

theorem append (h : Drawn id next next' xs) (h' : Drawn id next' next'' ys) :
    Drawn id next next'' (xs ++ ys) where
  le := h.le.trans h'.le
  ordered := by
    refine List.pairwise_append.2 ⟨h.ordered, h'.ordered, fun x hx y hy => ?_⟩
    exact (h.between x hx).2.trans_le (h'.between y hy).1
  between := by
    intro x hx
    rcases List.mem_append.1 hx with hx | hx
    · exact ⟨(h.between x hx).1, (h.between x hx).2.trans_le h'.le⟩
    · exact ⟨h.le.trans (h'.between x hx).1, (h'.between x hx).2⟩

theorem nodup (h : Drawn id next next' xs) : (xs.map id).Nodup :=
  List.pairwise_map.2 (h.ordered.imp ne_of_lt)

/-- Numbers tell rows apart. -/
theorem eq (h : Drawn id next next' xs) (hx : x ∈ xs) (hy : y ∈ xs) (e : id x = id y) : x = y :=
  List.inj_on_of_nodup_map h.nodup hx hy e

end Drawn

/-- **Rows are numbered once.** All rows that were ever made have different numbers, smaller than
the next one, and the rows in use are some of these, each with a number of its own. -/
structure NumberedOnce {α : Type} (id : α → Int) (next : Int) (made inUse : List α) : Prop where
  below : ∀ x ∈ made, id x < next
  distinct : (made.map id).Nodup
  apart : (inUse.map id).Nodup
  known : inUse.Subperm made

/-! ## What is committed, and by whom -/

/-- An account without its balance, which alone can change. -/
def Account.identity (a : Account) : Account := { a with balance := 0 }

theorem Account.eq_of_identity {x y : Account} (h : y.identity = x.identity) :
    y = { x with balance := y.balance } := by
  obtain ⟨id, owner, balance, currency, createdAt⟩ := x
  obtain ⟨id', owner', balance', currency', createdAt'⟩ := y
  cases h
  rfl

/-- The account that was opened. -/
def Effect.opened? : Effect → Option Account
  | .opened _ answer => some answer
  | _ => none

/-- The deeds that were committed. -/
def Effect.deeds : Effect → List Deed
  | .committed ds => ds
  | _ => []

theorem Deed.mem_transfers {ds : List Deed} {t : Transfer} :
    t ∈ ds.filterMap Deed.transfer? ↔ .transfer t ∈ ds := by
  refine List.mem_filterMap.trans ⟨?_, fun h => ⟨_, h, rfl⟩⟩
  rintro ⟨d, hd, hdt⟩
  cases d <;> cases hdt
  exact hd

theorem Deed.mem_entries {ds : List Deed} {e : Entry} :
    e ∈ ds.filterMap Deed.entry? ↔ .entry e ∈ ds := by
  refine List.mem_filterMap.trans ⟨?_, fun h => ⟨_, h, rfl⟩⟩
  rintro ⟨d, hd, hde⟩
  cases d <;> cases hde
  exact hd

namespace Ledger

/-- Whether what a deed stages is committed. -/
def HasRow (l : Ledger) : Deed → Prop
  | .transfer t => ∃ k, l.transfers.get? k = some t
  | .entry e => ∃ k, l.entries.get? k = some e
  | .adjustment .. => False

variable {nonNegative : Bool} {l : Ledger} {e : Effect} {es : List Effect} {a : Int}
  {y : Account}

/-- What is allowed overwrites neither a transfer nor an entry. -/
theorem Allows.persists (h : l.Allows nonNegative e) :
    l.transfers.Persists (l.apply e).transfers ∧ l.entries.Persists (l.apply e).entries := by
  cases e with
  | committed ds =>
      rw [apply, transfers_enactAll, entries_enactAll]
      exact ⟨Table.persists_foldl_insert h.2.transfer, Table.persists_foldl_insert h.2.entry⟩
  | _ => exact ⟨.refl _, .refl _⟩

theorem AllowsAll.persists (h : l.AllowsAll nonNegative es) :
    l.transfers.Persists (l.applyAll es).transfers ∧
      l.entries.Persists (l.applyAll es).entries := by
  induction es generalizing l with
  | nil => exact ⟨.refl _, .refl _⟩
  | cons e es ih =>
      obtain ⟨htransfers, hentries⟩ := h.1.persists
      obtain ⟨htransfers', hentries'⟩ := ih h.2
      exact ⟨htransfers.trans htransfers', hentries.trans hentries'⟩

theorem HasRow.of_enact {d d' : Deed} (h : (l.enact d').HasRow d) : l.HasRow d ∨ d = d' := by
  cases d with
  | transfer t =>
      cases d' with
      | transfer u =>
          obtain ⟨k, hk⟩ := h
          rcases Table.get?_insert_eq_some.1 hk with ⟨-, rfl⟩ | ⟨-, hk⟩
          · exact .inr rfl
          · exact .inl ⟨k, hk⟩
      | _ => exact .inl h
  | entry e =>
      cases d' with
      | entry x =>
          obtain ⟨k, hk⟩ := h
          rcases Table.get?_insert_eq_some.1 hk with ⟨-, rfl⟩ | ⟨-, hk⟩
          · exact .inr rfl
          · exact .inl ⟨k, hk⟩
      | _ => exact .inl h
  | adjustment a delta answer => exact h.elim

theorem HasRow.of_enactAll {d : Deed} {ds : List Deed} (h : (l.enactAll ds).HasRow d) :
    l.HasRow d ∨ d ∈ ds := by
  induction ds generalizing l with
  | nil => exact .inl h
  | cons x ds ih =>
      rcases ih h with h | h
      · rcases h.of_enact with h | rfl
        · exact .inl h
        · exact .inr List.mem_cons_self
      · exact .inr (List.mem_cons_of_mem x h)

/-- A transfer or an entry that is committed was so before, or is committed now. -/
theorem HasRow.of_applyAll {d : Deed} (h : (l.applyAll es).HasRow d) :
    l.HasRow d ∨ d ∈ es.flatMap Effect.deeds := by
  induction es generalizing l with
  | nil => exact .inl h
  | cons e es ih =>
      rw [List.flatMap_cons, List.mem_append]
      rcases ih h with h | h
      · cases e with
        | committed ds => exact h.of_enactAll.imp_right .inl
        | _ => exact .inl h
      · exact .inr (.inr h)

/-- An account that is there was there, with another balance perhaps, or was opened. -/
theorem Allows.account (h : l.Allows nonNegative e) (hy : (l.apply e).accounts.get? a = some y) :
    (∃ x, l.accounts.get? a = some x ∧ y.identity = x.identity) ∨ e.opened? = some y := by
  cases e with
  | opened n answer =>
      rcases Table.get?_insert_eq_some.1 hy with ⟨-, rfl⟩ | ⟨-, hy⟩
      · exact .inr rfl
      · exact .inl ⟨y, hy, rfl⟩
  | updated b balance answer =>
      obtain ⟨x, hx, rfl, -⟩ := h
      rcases Table.get?_insert_eq_some.1 hy with ⟨rfl, rfl⟩ | ⟨-, hy⟩
      · exact .inl ⟨x, hx, rfl⟩
      · exact .inl ⟨y, hy, rfl⟩
  | deleted b => exact .inl ⟨y, (Table.get?_erase_eq_some.1 hy).2, rfl⟩
  | committed ds =>
      rw [apply, get?_enactAll h.1, Option.map_eq_some_iff] at hy
      obtain ⟨x, hx, rfl⟩ := hy
      exact .inl ⟨x, hx, rfl⟩

theorem AllowsAll.account (h : l.AllowsAll nonNegative es)
    (hy : (l.applyAll es).accounts.get? a = some y) :
    (∃ x, l.accounts.get? a = some x ∧ y.identity = x.identity) ∨
      ∃ x ∈ es.filterMap Effect.opened?, y.identity = x.identity := by
  induction es generalizing l with
  | nil => exact .inl ⟨y, hy, rfl⟩
  | cons e es ih =>
      rcases ih h.2 hy with ⟨x, hx, hyx⟩ | ⟨x, hx, hyx⟩
      · rcases h.1.account hx with ⟨z, hz, hxz⟩ | hopened
        · exact .inl ⟨z, hz, hyx.trans hxz⟩
        · exact .inr ⟨x, List.mem_filterMap.2 ⟨e, List.mem_cons_self, hopened⟩, hyx⟩
      · obtain ⟨e', he', hopened⟩ := List.mem_filterMap.1 hx
        exact .inr ⟨x, List.mem_filterMap.2 ⟨e', List.mem_cons_of_mem e he', hopened⟩, hyx⟩

end Ledger

/-! ## What a move draws, and what is in use after it -/

namespace Bank

/-- The transfers that are committed or staged. -/
def transfersInUse (b : Bank) : List Transfer :=
  b.transfers.toList ++ b.works.flatMap fun x => x.2.transfers

/-- The entries that are committed or staged. -/
def entriesInUse (b : Bank) : List Entry :=
  b.entries.toList ++ b.works.flatMap fun x => x.2.entries

/-- The accounts that there are, but for their balances. -/
def accountsInUse (b : Bank) : List Account := b.allAccounts.map Account.identity

/-- From one bank to another the rows of deeds, and accounts, are made under the next numbers. -/
structure Draws (b b' : Bank) (ds : List Deed) (accounts : List Account) : Prop where
  transfers : Drawn Transfer.id b.nextTransfer b'.nextTransfer (ds.filterMap Deed.transfer?)
  entries : Drawn Entry.id b.nextEntry b'.nextEntry (ds.filterMap Deed.entry?)
  accounts : Drawn Account.id b.nextAccount b'.nextAccount accounts

variable {b b' b'' : Bank} {o : Owner} {awaits : Owner → Option Int} {ds ds' : List Deed}
  {as as' : List Account}

namespace Draws

theorem of_same (htransfer : b'.nextTransfer = b.nextTransfer)
    (hentry : b'.nextEntry = b.nextEntry) (haccount : b'.nextAccount = b.nextAccount) :
    b.Draws b' [] [] :=
  ⟨.nil htransfer.ge, .nil hentry.ge, .nil haccount.ge⟩

theorem of_within (h : b.Within o b') : b.Draws b' [] [] :=
  ⟨.nil h.nextTransfer, .nil h.nextEntry, .nil h.nextAccount.ge⟩

theorem append (h : b.Draws b' ds as) (h' : b'.Draws b'' ds' as') :
    b.Draws b'' (ds ++ ds') (as ++ as') where
  transfers := by
    rw [List.filterMap_append]
    exact h.transfers.append h'.transfers
  entries := by
    rw [List.filterMap_append]
    exact h.entries.append h'.entries
  accounts := h.accounts.append h'.accounts

end Draws

theorem draws_createTransfer (b : Bank) (o : Owner) (n : NewTransfer) :
    b.Draws (b.createTransfer o n).2 (Deed.noted .transfer (b.createTransfer o n).1) [] := by
  rcases b.createTransfer_cases o n with ⟨-, heq⟩ | ⟨-, -, heq⟩ | ⟨-, -, t, rfl, heq⟩
  · rw [heq]
    exact .of_same rfl rfl rfl
  · rw [heq]
    exact .of_same rfl rfl rfl
  · rw [heq]
    exact ⟨.one rfl, .nil le_rfl, .nil le_rfl⟩

theorem draws_createEntry (b : Bank) (o : Owner) (n : NewEntry) :
    b.Draws (b.createEntry o n).2 (Deed.noted .entry (b.createEntry o n).1) [] := by
  rcases b.createEntry_cases o n with ⟨-, heq⟩ | ⟨-, e, rfl, heq⟩
  · rw [heq]
    exact .of_same rfl rfl rfl
  · rw [heq]
    exact ⟨.nil le_rfl, .one rfl, .nil le_rfl⟩

theorem draws_createAccount (b : Bank) (n : NewAccount) :
    b.Draws (b.createAccount n).2 [] (((Effect.ofOpening n (b.createAccount n).1).filterMap
      Effect.opened?).map Account.identity) := by
  rcases b.createAccount_cases n with ⟨-, -, heq⟩ | ⟨-, account, rfl, heq⟩
  · rw [heq]
    exact ⟨.nil le_rfl, .nil le_rfl, .nil (by dsimp only; omega)⟩
  · rw [heq]
    exact ⟨.nil le_rfl, .nil le_rfl, .one rfl⟩

theorem commit_of_not_isOpen (ho : ¬ b.IsOpen o) : b.commit o = b := by
  unfold commit
  rw [show b.work? o = none by simpa [IsOpen] using ho]

theorem draws_commit (b : Bank) (hn : (b.heldBy o).Nodup) : b.Draws (b.commit o) [] [] := by
  by_cases ho : b.IsOpen o
  · rw [commit_eq ho hn]
    exact .of_same rfl rfl rfl
  · rw [commit_of_not_isOpen ho]
    exact .of_same rfl rfl rfl

end Bank

namespace Hall

/-- The accounts that a move opens, but for their balances. -/
def accountsMade (h : Hall) (m : Move) : List Account :=
  ((h.effects m).filterMap Effect.opened?).map Account.identity

/-- A deed whose row is committed, or staged in an open unit of work. -/
def InUse (h : Hall) (d : Deed) : Prop := h.bank.ledger.HasRow d ∨ ∃ o, d ∈ h.deeds o

variable {h : Hall} {o p : Owner} {c : Call} {m : Move} {d : Deed} {number : Nat} {a : Int}

theorem done_call (hc : h.MayCall o c) : h.done (.call o c) =
    (((Bank.store o).perform c h.bank).1.toList.map (Exchange.mk c)).flatMap Exchange.deeds :=
  if_pos hc

/-- Effects that open no account and commit nothing. -/
def Statement (es : List Effect) : Prop :=
  es.filterMap Effect.opened? = [] ∧ es.flatMap Effect.deeds = []

theorem statement_effects {r : Request}
    (hr : (∃ balance, r.command = .updateAccount a balance) ∨ r.command = .deleteAccount a)
    (b : Bank) : Statement (r.effects number b) := by
  unfold Request.effects
  cases (r.proceed number b).1 with
  | none => exact ⟨rfl, rfl⟩
  | some reply =>
      rw [Option.elim_some]
      unfold Effect.of
      rcases hr with ⟨balance, hr⟩ | hr
      · rw [hr]
        split <;> first | contradiction | exact ⟨rfl, rfl⟩
      · rw [hr]
        split <;> first | contradiction | exact ⟨rfl, rfl⟩

theorem statement_updateAccount (h : Hall) (number : Nat) (account balance : Int) :
    Statement (h.effects (.updateAccount number account balance)) := by
  by_cases hm : h.MayState number account
  · rw [show h.effects (.updateAccount number account balance) = _ from if_pos hm]
    exact statement_effects (.inl ⟨balance, rfl⟩) h.bank
  · rw [show h.effects (.updateAccount number account balance) = _ from if_neg hm]
    exact ⟨rfl, rfl⟩

theorem statement_deleteAccount (h : Hall) (number : Nat) (account : Int) :
    Statement (h.effects (.deleteAccount number account)) := by
  by_cases hm : h.MayState number account
  · rw [show h.effects (.deleteAccount number account) = _ from if_pos hm]
    exact statement_effects (.inr rfl) h.bank
  · rw [show h.effects (.deleteAccount number account) = _ from if_neg hm]
    exact ⟨rfl, rfl⟩

/-- What is committed at a move was done in an open unit of work. -/
theorem mem_deeds_of_effects (hd : d ∈ (h.effects m).flatMap Effect.deeds) :
    ∃ o, d ∈ h.deeds o := by
  have none : ∀ {es : List Effect}, es.flatMap Effect.deeds = [] → d ∈ es.flatMap Effect.deeds →
      ∃ o, d ∈ h.deeds o := by
    intro es hes hmem
    rw [hes] at hmem
    cases hmem
  cases m with
  | call o c =>
      cases c with
      | commit =>
          by_cases hc : h.MayCall o .commit
          · rw [show h.effects (.call o .commit) = [.committed (h.deeds o)] from if_pos hc] at hd
            exact ⟨o, by simpa [Effect.deeds] using hd⟩
          · rw [show h.effects (.call o .commit) = [] from if_neg hc] at hd
            cases hd
      | _ => cases hd
  | createAccount n =>
      refine none ?_ hd
      unfold effects Effect.ofOpening
      dsimp only
      cases (h.bank.createAccount n).1 <;> rfl
  | updateAccount number account balance =>
      exact none (statement_updateAccount h number account balance).2 hd
  | deleteAccount number account => exact none (statement_deleteAccount h number account).2 hd
  | _ => cases hd

/-- A unit of work does something at its own moves only. -/
theorem mem_deeds_after (hd : d ∈ (h.after m).deeds p) : d ∈ h.deeds p ∨ d ∈ h.done m := by
  have same : (h.after m).log = h.log → d ∈ h.deeds p ∨ d ∈ h.done m := by
    intro heq
    unfold deeds at hd ⊢
    rw [heq] at hd
    exact .inl hd
  cases m with
  | call o c =>
      by_cases hc : h.MayCall o c
      · rw [done_call hc]
        rw [after_call hc] at hd
        unfold deeds call at hd
        dsimp only at hd
        by_cases hp : p = o
        · subst hp
          rw [update_self] at hd
          split at hd
          · rw [List.flatMap_append, List.mem_append] at hd
            exact hd
          · cases hd
        · rw [update_of_ne hp] at hd
          exact .inl hd
      · exact same (congrArg log (if_neg hc))
  | leave o => exact same (log_leave h o)
  | drop o =>
      unfold deeds after drop at hd
      dsimp only at hd
      by_cases hp : p = o
      · rw [hp, update_self] at hd
        cases hd
      · rw [update_of_ne hp] at hd
        exact .inl hd
  | createAccount n => exact same rfl
  | updateAccount number account balance =>
      refine same ?_
      unfold after
      dsimp only
      split <;> rfl
  | deleteAccount number account =>
      refine same ?_
      unfold after
      dsimp only
      split <;> rfl
  | tick now => exact same rfl

namespace Sound

/-- **Nothing comes into use but what is made.** -/
theorem inUse_after (h₀ : h.Sound) (hd : (h.after m).InUse d) : h.InUse d ∨ d ∈ h.done m := by
  rcases hd with hd | ⟨p, hd⟩
  · rw [(h₀.brings m).ledger] at hd
    rcases hd.of_applyAll with hd | hd
    · exact .inl (.inl hd)
    · exact .inl (.inr (mem_deeds_of_effects hd))
  · rcases mem_deeds_after hd with hd | hd
    · exact .inl (.inr ⟨p, hd⟩)
    · exact .inr hd

theorem inUse_afterAll (h₀ : h.Sound) (ms : List Move) (hd : (h.afterAll ms).InUse d) :
    h.InUse d ∨ d ∈ h.trace done ms := by
  induction ms generalizing h with
  | nil => exact .inl hd
  | cons m ms ih =>
      show h.InUse d ∨ d ∈ h.done m ++ (h.after m).trace done ms
      rw [List.mem_append]
      rcases ih (h₀.after m) hd with hd | hd
      · exact (h₀.inUse_after hd).imp_right .inl
      · exact .inr (.inr hd)

/-- A call draws a number if it stages something. -/
theorem draws_call (h₀ : h.Sound) (hc : h.MayCall o c) :
    h.bank.Draws (h.call o c).bank (h.done (.call o c)) [] := by
  have hb := h₀.bank
  rw [done_call hc]
  cases c with
  | begin => exact .of_within (Bank.within_begin _ _)
  | createTransfer n =>
      have hdraws := h.bank.draws_createTransfer o n
      rw [← List.append_nil (Deed.noted _ _)] at hdraws
      exact hdraws
  | createEntry n =>
      have hdraws := h.bank.draws_createEntry o n
      rw [← List.append_nil (Deed.noted _ _)] at hdraws
      exact hdraws
  | addBalance account delta =>
      have hw := (hb.addBalance (hc.1.2 (by simp)) hc.2 delta).1
      show h.bank.Draws (h.bank.addBalance o account delta).2
        (((h.bank.addBalance o account delta).1.toList.map
          (Exchange.mk (.addBalance account delta))).flatMap Exchange.deeds) []
      generalize h.bank.addBalance o account delta = x at hw ⊢
      obtain ⟨_ | answer, b⟩ := x
      · exact .of_within hw
      · cases answer with
        | ok answer => exact ⟨.nil hw.nextTransfer, .nil hw.nextEntry, .nil hw.nextAccount.ge⟩
        | error e => exact .of_within hw
  | commit => exact h.bank.draws_commit (hb.locking.once o)
  | rollback => exact .of_within hb.within_rollback

/-- **What is made at a move gets the next number.** -/
theorem draws (h₀ : h.Sound) (m : Move) :
    h.bank.Draws (h.after m).bank (h.done m) (h.accountsMade m) := by
  cases m with
  | call o c =>
      have hnone : h.accountsMade (.call o c) = [] := by
        unfold accountsMade effects
        cases c with
        | commit => dsimp only; split <;> rfl
        | _ => rfl
      rw [hnone]
      by_cases hc : h.MayCall o c
      · rw [after_call hc]
        exact h₀.draws_call hc
      · rw [show h.after (.call o c) = h from if_neg hc,
          show h.done (.call o c) = [] from if_neg hc]
        exact .of_same rfl rfl rfl
  | leave o => exact .of_within (h₀.within_leave o)
  | drop o => exact .of_within ((h₀.within_leave o).trans (h₀.leave o).bank.within_rollback)
  | createAccount n => exact h.bank.draws_createAccount n
  | updateAccount number account balance =>
      have hnone : h.accountsMade (.updateAccount number account balance) = [] :=
        congrArg (List.map _) (statement_updateAccount h number account balance).1
      rw [hnone]
      by_cases hm : h.MayState number account
      · rw [after_updateAccount hm]
        unfold state
        rcases h₀.bank.updateAccount_cases (Bank.heldBy_of_not_isOpen hm.1) hm.2 balance with
          ⟨locks, ⟨heq, -⟩ | ⟨answer, heq, -⟩ | ⟨r, -, -, -, heq, -⟩⟩
        all_goals
          rw [heq]
          exact .of_same rfl rfl rfl
      · rw [show h.after (.updateAccount number account balance) = h from if_neg hm]
        exact .of_same rfl rfl rfl
  | deleteAccount number account =>
      have hnone : h.accountsMade (.deleteAccount number account) = [] :=
        congrArg (List.map _) (statement_deleteAccount h number account).1
      rw [hnone]
      by_cases hm : h.MayState number account
      · rw [after_deleteAccount hm]
        unfold state
        rcases h₀.bank.deleteAccount_cases (Bank.heldBy_of_not_isOpen hm.1) hm.2 with
          ⟨locks, ⟨heq, -⟩ | ⟨answer, heq, -⟩ | ⟨-, -, -, heq, -⟩⟩
        all_goals
          rw [heq]
          exact .of_same rfl rfl rfl
      · rw [show h.after (.deleteAccount number account) = h from if_neg hm]
        exact .of_same rfl rfl rfl
  | tick now => exact .of_same rfl rfl rfl

/-- **What is made at moves, one after the other, gets the next numbers.** -/
theorem draws_all (h₀ : h.Sound) (ms : List Move) :
    h.bank.Draws (h.afterAll ms).bank (h.trace done ms) (h.trace accountsMade ms) := by
  induction ms generalizing h with
  | nil => exact .of_same rfl rfl rfl
  | cons m ms ih => exact (h₀.draws m).append (ih (h₀.after m))

end Sound

end Hall

/-! ## Rows in use -/

namespace Bank

variable {b : Bank} {spent : Spent} {awaits : Owner → Option Int}

theorem lookup_of_mem {l : List (Owner × Work)} (hn : (l.map Prod.fst).Nodup) {x : Owner × Work}
    (hx : x ∈ l) : l.lookup x.1 = some x.2 := by
  induction l with
  | nil => cases hx
  | cons y l ih =>
      obtain ⟨hy, hl⟩ := List.nodup_cons.1 hn
      rw [lookup_cons_eq]
      rcases List.mem_cons.1 hx with rfl | hx
      · exact if_pos rfl
      · have hne : ¬ x.1 = y.1 := fun e => hy (e ▸ List.mem_map.2 ⟨x, hx, rfl⟩)
        rw [if_neg hne]
        exact ih hl hx

theorem Anchored.work_of_mem (h : b.Anchored) {x : Owner × Work} (hx : x ∈ b.works) :
    b.IsOpen x.1 ∧ b.work x.1 = x.2 := by
  have hwork : b.work? x.1 = some x.2 := lookup_of_mem h.distinct hx
  exact ⟨by rw [IsOpen, hwork]; rfl, work_of_work? hwork⟩

/-- Committed and staged rows have different numbers, all of them. -/
theorem nodup_inUse {α : Type} {gone : Int → Prop} {id : α → Int} {rows : Table α} {next : Int}
    {staged : Work → List α} (h : Numbered gone id rows next fun o => staged (b.work o))
    (hb : b.Anchored) :
    ((rows.toList ++ b.works.flatMap fun x => staged x.2).map id).Nodup := by
  have hstaged : ∀ {x y}, x ∈ b.works → y ∈ staged x.2 → y ∈ staged (b.work x.1) := by
    intro x y hx hy
    rwa [(hb.work_of_mem hx).2]
  rw [List.map_append, List.map_flatMap, List.nodup_append]
  refine ⟨Table.nodup_toList fun k x hk => (h.row hk).1, ?_, ?_⟩
  · refine List.nodup_flatMap.2 ⟨fun x hx => ?_, ?_⟩
    · rw [← (hb.work_of_mem hx).2]
      exact h.nodup x.1
    · -- Two units of work have different owners, so they have staged different rows.
      refine (List.pairwise_map.1 hb.distinct).imp_of_mem fun hx hy hne i hi hj => ?_
      obtain ⟨u, hu, rfl⟩ := List.mem_map.1 hi
      obtain ⟨v, hv, e⟩ := List.mem_map.1 hj
      exact hne (h.apart (hstaged hx hu) (hstaged hy hv) e.symm)
  · rintro i hi j hj rfl
    obtain ⟨u, hu, rfl⟩ := List.mem_map.1 hi
    obtain ⟨x, hx, hv⟩ := List.mem_flatMap.1 hj
    obtain ⟨v, hv, e⟩ := List.mem_map.1 hv
    obtain ⟨k, hk⟩ := Table.mem_toList_iff.1 hu
    have hnone := (h.fresh (hstaged hx hv)).2
    rw [e, (h.row hk).1, hk] at hnone
    cases hnone

theorem Sound.nodup_accountsInUse (h : b.Sound awaits) :
    (b.accountsInUse.map Account.id).Nodup := by
  have hids : b.accountsInUse.map Account.id = b.accounts.toList.map fun r => r.committed.id := by
    unfold accountsInUse allAccounts
    rw [List.map_map, List.map_map]
    rfl
  rw [hids]
  exact Table.nodup_toList fun k r hr => (h.settled.stamped hr).1

/-- **A commit overwrites nothing:** it adds what the unit of work has staged to what is
committed. -/
structure CommitAdds (b : Bank) (o : Owner) : Prop where
  transfers : (b.commit o).transfers.toList.Perm (b.transfers.toList ++ (b.work o).transfers)
  entries : (b.commit o).entries.toList.Perm (b.entries.toList ++ (b.work o).entries)

theorem Sound.commitAdds (h : b.Sound awaits) (hf : b.Fresh spent) (o : Owner) :
    b.CommitAdds o := by
  by_cases ho : b.IsOpen o
  · constructor
    · rw [commit_eq ho (h.locking.once o)]
      exact Table.toList_foldl_insert_perm (hf.transfers.nodup o) fun t ht =>
        (hf.transfers.fresh ht).2
    · rw [commit_eq ho (h.locking.once o)]
      exact Table.toList_foldl_insert_perm (hf.entries.nodup o) fun e he => (hf.entries.fresh he).2
  · constructor
    · rw [commit_of_not_isOpen ho, work_of_not_isOpen ho]
      simp
    · rw [commit_of_not_isOpen ho, work_of_not_isOpen ho]
      simp

/-- **A later bank:** committed transfers and entries are there as they were, and of an account that
is still there nothing but the balance has changed. -/
structure Since (b b' : Bank) : Prop where
  transfer : ∀ {k t}, b.getTransfer k = some t → b'.getTransfer k = some t
  entry : ∀ {k e}, b.getEntry k = some e → b'.getEntry k = some e
  transferCount : b.transferCount ≤ b'.transferCount
  entryCount : b.entryCount ≤ b'.entryCount
  account : ∀ {a x y}, b.getAccount a = some x → b'.getAccount a = some y →
    y = { x with balance := y.balance }

end Bank

/-! ## The main result -/

namespace NumberedOnce

variable {α : Type} {id : α → Int} {next next' : Int} {made inUse : List α}

theorem of_drawn (h : Drawn id next next' made) (apart : (inUse.map id).Nodup)
    (known : inUse ⊆ made) : NumberedOnce id next' made inUse :=
  ⟨fun x hx => (h.between x hx).2, h.nodup, apart, List.subperm_of_subset apart.of_map known⟩

end NumberedOnce

namespace Hall

/-- **What moves make is numbered once,** for transfers, entries and accounts. -/
structure Numbers (h : Hall) (ms : List Move) : Prop where
  transfers : NumberedOnce Transfer.id (h.afterAll ms).bank.nextTransfer
    ((h.trace done ms).filterMap Deed.transfer?) (h.afterAll ms).bank.transfersInUse
  entries : NumberedOnce Entry.id (h.afterAll ms).bank.nextEntry
    ((h.trace done ms).filterMap Deed.entry?) (h.afterAll ms).bank.entriesInUse
  accounts : NumberedOnce Account.id (h.afterAll ms).bank.nextAccount
    (h.trace accountsMade ms) (h.afterAll ms).bank.accountsInUse

variable {h : Hall} {d : Deed}

/-- A transfer in use is one of the deeds in use. -/
theorem Sound.inUse_of_transfer (h₀ : h.Sound) {t : Transfer} (ht : t ∈ h.bank.transfersInUse) :
    h.InUse (.transfer t) := by
  rcases List.mem_append.1 ht with ht | ht
  · exact .inl (Table.mem_toList_iff.1 ht)
  · obtain ⟨x, hx, ht⟩ := List.mem_flatMap.1 ht
    obtain ⟨ho, hwork⟩ := h₀.bank.anchored.work_of_mem hx
    rw [← hwork, (h₀.reflects ho).transfers, Deed.mem_transfers] at ht
    exact .inr ⟨x.1, ht⟩

/-- An entry in use is one of the deeds in use. -/
theorem Sound.inUse_of_entry (h₀ : h.Sound) {e : Entry} (he : e ∈ h.bank.entriesInUse) :
    h.InUse (.entry e) := by
  rcases List.mem_append.1 he with he | he
  · exact .inl (Table.mem_toList_iff.1 he)
  · obtain ⟨x, hx, he⟩ := List.mem_flatMap.1 he
    obtain ⟨ho, hwork⟩ := h₀.bank.anchored.work_of_mem hx
    rw [← hwork, (h₀.reflects ho).entries, Deed.mem_entries] at he
    exact .inr ⟨x.1, he⟩

theorem not_inUse_opening (nonNegative : Bool) (d : Deed) : ¬ (opening nonNegative).InUse d := by
  rintro (hd | ⟨o, hd⟩)
  · cases d with
    | transfer t => exact nomatch hd
    | entry e => exact nomatch hd
    | adjustment a delta answer => exact hd
  · cases hd

theorem trace_accountsMade (h : Hall) (ms : List Move) : h.trace accountsMade ms =
    ((h.trace effects ms).filterMap Effect.opened?).map Account.identity := by
  induction ms generalizing h with
  | nil => rfl
  | cons m ms ih =>
      show h.accountsMade m ++ (h.after m).trace accountsMade ms =
        ((h.effects m ++ (h.after m).trace effects ms).filterMap _).map _
      rw [List.filterMap_append, List.map_append, ih]
      rfl

/-- Accounts that are in use were opened. -/
theorem accountsInUse_subset (nonNegative : Bool) (ms : List Move) :
    ((opening nonNegative).afterAll ms).bank.accountsInUse ⊆
      (opening nonNegative).trace accountsMade ms := by
  intro y hy
  obtain ⟨hledger, hallowed, -⟩ := (sound_opening nonNegative).brings_all ms
  obtain ⟨x, hx, rfl⟩ := List.mem_map.1 hy
  obtain ⟨r, hr, rfl⟩ := List.mem_map.1 hx
  obtain ⟨k, hk⟩ := Table.mem_toList_iff.1 hr
  have hrow : ((opening nonNegative).afterAll ms).bank.ledger.accounts.get? k =
      some r.committed := by rw [Bank.get?_ledger, hk, Option.map_some]
  rw [hledger] at hrow
  rcases hallowed.account hrow with ⟨z, hz, -⟩ | ⟨z, hz, heq⟩
  · cases hz
  · rw [trace_accountsMade, heq]
    exact List.mem_map_of_mem hz

/-- **Rows are numbered once,** whatever happens. -/
theorem numbers_run (nonNegative : Bool) (ms : List Move) : (opening nonNegative).Numbers ms := by
  have h₀ := sound_run nonNegative ms
  have hdraws := (sound_opening nonNegative).draws_all ms
  have made : ∀ {d}, ((opening nonNegative).afterAll ms).InUse d →
      d ∈ (opening nonNegative).trace done ms := fun hd =>
    ((sound_opening nonNegative).inUse_afterAll ms hd).resolve_left (not_inUse_opening _ _)
  exact
    { transfers := .of_drawn hdraws.transfers (Bank.nodup_inUse h₀.fresh.transfers h₀.bank.anchored)
        fun t ht => Deed.mem_transfers.2 (made (h₀.inUse_of_transfer ht))
      entries := .of_drawn hdraws.entries (Bank.nodup_inUse h₀.fresh.entries h₀.bank.anchored)
        fun e he => Deed.mem_entries.2 (made (h₀.inUse_of_entry he))
      accounts := .of_drawn hdraws.accounts h₀.bank.nodup_accountsInUse
        (accountsInUse_subset nonNegative ms) }

/-- Later there is nothing less to see, and nothing looks different but balances. -/
theorem since_run (nonNegative : Bool) (ms ms' : List Move) :
    ((opening nonNegative).afterAll ms).bank.Since
      (((opening nonNegative).afterAll ms).afterAll ms').bank := by
  have h₀ := sound_run nonNegative ms
  have h₁ := h₀.afterAll ms'
  obtain ⟨hledger, hallowed, -⟩ := h₀.brings_all ms'
  obtain ⟨htransfers, hentries⟩ := hallowed.persists
  rw [← hledger] at htransfers hentries
  refine ⟨fun ht => htransfers _ _ ht, fun he => hentries _ _ he, htransfers.size_le,
    hentries.size_le, fun {a x y} hx hy => ?_⟩
  -- Both stem from the one account that was opened under the number.
  have hall : (opening nonNegative).afterAll (ms ++ ms') =
      ((opening nonNegative).afterAll ms).afterAll ms' := List.foldl_append
  have stems : ∀ {h : Hall} {z : Account}, h.Sound → h.bank.getAccount a = some z →
      z.id = a ∧ z.identity ∈ h.bank.accountsInUse := by
    intro h z hs hz
    obtain ⟨r, hr, rfl⟩ := Option.map_eq_some_iff.1 hz
    refine ⟨(hs.bank.settled.stamped hr).1, List.mem_map_of_mem (List.mem_map_of_mem ?_)⟩
    exact Table.mem_toList_iff.2 ⟨a, hr⟩
  obtain ⟨hxa, hx⟩ := stems h₀ hx
  obtain ⟨hya, hy⟩ := stems h₁ hy
  have hdraws := ((sound_opening nonNegative).draws_all (ms ++ ms')).accounts
  have heq : y.identity = x.identity := by
    refine hdraws.eq ?_ ?_ (hya.trans hxa.symm)
    · rw [← hall] at hy
      exact accountsInUse_subset nonNegative (ms ++ ms') hy
    · rw [trace_append]
      exact List.mem_append_left _ (accountsInUse_subset nonNegative ms hx)
  exact Account.eq_of_identity heq

/-- **Numbers are never used again and the ledger only grows.** Whatever calls, account statements,
cancellations, rollbacks and drops follow each other: all rows that were made have different
numbers, and those in use are among them; a commit adds its rows and overwrites none; and what was
once committed is there for good. The bank of every desk goes through such moves. -/
theorem append_only_run (nonNegative : Bool) :
    (∀ ms, (opening nonNegative).Numbers ms) ∧
    (∀ ms o, ((opening nonNegative).afterAll ms).bank.CommitAdds o) ∧
    (∀ ms ms', ((opening nonNegative).afterAll ms).bank.Since
      (((opening nonNegative).afterAll ms).afterAll ms').bank) ∧
    ∀ es es', ∃ ms ms',
      ((opening nonNegative).afterAll ms).bank = ((Desk.opening nonNegative).afterAll es).bank ∧
      (((opening nonNegative).afterAll ms).afterAll ms').bank =
        ((Desk.opening nonNegative).afterAll (es ++ es')).bank :=
  ⟨numbers_run nonNegative, fun ms o => (sound_run nonNegative ms).bank.commitAdds
    (sound_run nonNegative ms).fresh o, since_run nonNegative, comes_later nonNegative⟩

end Hall

end DoubleEntry
