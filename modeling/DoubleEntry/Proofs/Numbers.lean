import DoubleEntry.Proofs.Statements
set_option autoImplicit false

/-! # Numbers are never used again

Accounts, transfers and entries are numbered in the order in which they are made. `Numbered` says
that all numbers in use, by committed and by staged rows, are distinct and smaller than the next
one, and `Bank.Fresh` that this is so at a bank.
-/

namespace DoubleEntry

open Function (update update_self update_of_ne)

/-- A number that was given and is in use no more. -/
structure Unused {α : Type} (id : α → Int) (rows : Table α) (next : Int) (staged : Owner → List α)
    (k : Int) : Prop where
  given : k < next
  row : rows.get? k = none
  staged : ∀ {o x}, x ∈ staged o → id x ≠ k

/-- **Numbers are given once.** Committed and staged rows have distinct numbers, smaller than the
next one, and none of those that are spent. -/
structure Numbered {α : Type} (spent : Int → Prop) (id : α → Int) (rows : Table α) (next : Int)
    (staged : Owner → List α) : Prop where
  row : ∀ {k x}, rows.get? k = some x → id x = k ∧ k < next
  fresh : ∀ {o x}, x ∈ staged o → id x < next ∧ rows.get? (id x) = none
  nodup : ∀ o, ((staged o).map id).Nodup
  apart : ∀ {o p x y}, x ∈ staged o → y ∈ staged p → id x = id y → o = p
  unused : ∀ {k}, spent k → Unused id rows next staged k

namespace Numbered

variable {α : Type} {spent : Int → Prop} {id : α → Int} {rows : Table α} {next : Int}
  {staged : Owner → List α} {o : Owner} {x : α}

/-- Staging a row under the next number. -/
theorem stage (h : Numbered spent id rows next staged) (hx : id x = next) :
    Numbered spent id rows (next + 1) (update staged o (staged o ++ [x])) := by
  have hold : ∀ {p y}, y ∈ staged p → id y ≠ id x := by
    intro p y hy
    have hlt := (h.fresh hy).1
    omega
  have hmem : ∀ {p y}, y ∈ update staged o (staged o ++ [x]) p → y ∈ staged p ∨ p = o ∧ y = x := by
    intro p y hy
    by_cases hp : p = o
    · subst hp
      rw [Function.update_self, List.mem_append, List.mem_singleton] at hy
      exact hy.imp_right fun e => ⟨rfl, e⟩
    · rw [Function.update_of_ne hp] at hy
      exact .inl hy
  exact
    { row := by
        intro k y hy
        obtain ⟨hk, hlt⟩ := h.row hy
        exact ⟨hk, by omega⟩
      fresh := by
        intro p y hy
        rcases hmem hy with hy | ⟨-, rfl⟩
        · obtain ⟨hlt, hnone⟩ := h.fresh hy
          exact ⟨by omega, hnone⟩
        · refine ⟨by omega, ?_⟩
          cases hrow : rows.get? (id y) with
          | none => rfl
          | some z =>
              have hlt := (h.row hrow).2
              omega
      nodup := by
        intro p
        by_cases hp : p = o
        · subst hp
          rw [Function.update_self, List.map_append, List.nodup_append]
          refine ⟨h.nodup p, by simp, fun i hi j hj e => ?_⟩
          obtain ⟨y, hy, rfl⟩ := List.mem_map.1 hi
          rw [List.map_singleton, List.mem_singleton] at hj
          exact hold hy (e.trans hj)
        · rw [Function.update_of_ne hp]
          exact h.nodup p
      apart := by
        intro p q y z hy hz e
        rcases hmem hy with hy' | ⟨hp, hyx⟩ <;> rcases hmem hz with hz' | ⟨hq, hzx⟩
        · exact h.apart hy' hz' e
        · exact absurd (e.trans (congrArg id hzx)) (hold hy')
        · exact absurd (e.symm.trans (congrArg id hyx)) (hold hz')
        · exact hp.trans hq.symm
      unused := by
        intro k hk
        obtain ⟨hlt, hnone, hne⟩ := h.unused hk
        refine ⟨by omega, hnone, fun {p y} hy => ?_⟩
        rcases hmem hy with hy | ⟨-, rfl⟩
        · exact hne hy
        · -- A spent number was given before the next one.
          omega }

/-- Dropping what an owner has staged. -/
theorem discard (h : Numbered spent id rows next staged) :
    Numbered spent id rows next (update staged o []) := by
  have hmem : ∀ {p y}, y ∈ update staged o [] p → y ∈ staged p := by
    intro p y hy
    have hp : p ≠ o := fun e => by simp [e] at hy
    rwa [Function.update_of_ne hp] at hy
  have hunused : ∀ {k}, spent k → Unused id rows next (update staged o []) k := fun hk =>
    ⟨(h.unused hk).given, (h.unused hk).row, fun hy => (h.unused hk).staged (hmem hy)⟩
  refine ⟨h.row, fun hy => h.fresh (hmem hy), ?_, fun hy hz => h.apart (hmem hy) (hmem hz), hunused⟩
  intro p
  by_cases hp : p = o
  · simp [hp]
  · rw [Function.update_of_ne hp]
    exact h.nodup p

/-- Committing what an owner has staged. -/
theorem commit (h : Numbered spent id rows next staged) :
    Numbered spent id ((staged o).foldl (fun t x => t.insert (id x) x) rows) next
      (update staged o []) := by
  have hd := h.discard (o := o)
  exact
    { row := by
        intro k y hy
        rcases Table.of_get?_foldl_insert hy with ⟨hmem, rfl⟩ | hrow
        · exact ⟨rfl, (h.fresh hmem).1⟩
        · exact h.row hrow
      fresh := by
        intro p y hy
        have hp : p ≠ o := fun e => by simp [e] at hy
        rw [Function.update_of_ne hp] at hy
        refine ⟨(h.fresh hy).1, ?_⟩
        rw [Table.get?_foldl_insert_of_not_mem]
        · exact (h.fresh hy).2
        · intro hmem
          obtain ⟨z, hz, e⟩ := List.mem_map.1 hmem
          exact hp (h.apart hy hz e.symm)
      nodup := hd.nodup
      apart := hd.apart
      unused := by
        intro k hk
        obtain ⟨hlt, hnone, hne⟩ := h.unused hk
        refine ⟨hlt, ?_, (hd.unused hk).staged⟩
        rw [Table.get?_foldl_insert_of_not_mem]
        · exact hnone
        · intro hmem
          obtain ⟨z, hz, e⟩ := List.mem_map.1 hmem
          exact hne hz e }

/-- A number that was given and is in use no more is spent. -/
theorem spend (h : Numbered spent id rows next staged) :
    Numbered (Unused id rows next staged) id rows next staged :=
  ⟨h.row, h.fresh, h.nodup, h.apart, fun hk => hk⟩

end Numbered

/-- **A number that nobody can commit but one owner:** it was given, no committed row has it, and no
row that somebody else has staged. -/
structure Retained {α : Type} (id : α → Int) (rows : Table α) (next : Int)
    (staged : Owner → List α) (o : Owner) (k : Int) : Prop where
  given : k < next
  row : rows.get? k = none
  staged : ∀ {p x}, p ≠ o → x ∈ staged p → id x ≠ k

section Retained

variable {α : Type} {spent : Int → Prop} {id : α → Int} {rows : Table α} {next : Int}
  {staged : Owner → List α} {o : Owner} {x : α} {k : Int}

theorem Numbered.retained_of_staged (h : Numbered spent id rows next staged) (hx : x ∈ staged o) :
    Retained id rows next staged o (id x) :=
  ⟨(h.fresh hx).1, (h.fresh hx).2, fun hp hy e => hp (h.apart hy hx e)⟩

theorem Numbered.retained_of_spent (h : Numbered spent id rows next staged) (hk : spent k)
    (o : Owner) : Retained id rows next staged o k :=
  ⟨(h.unused hk).given, (h.unused hk).row, fun _ => (h.unused hk).staged⟩

/-- The numbers that an owner draws while nobody else stages anything are its own. -/
theorem Numbered.retained_of_drawn (h : Numbered spent id rows next staged) {next' : Int}
    {staged' : Owner → List α} (hle : next ≤ k) (hlt : k < next')
    (hstaged : ∀ {p}, p ≠ o → staged' p = staged p) : Retained id rows next' staged' o k := by
  refine ⟨hlt, ?_, fun {p x} hp hx e => ?_⟩
  · cases hk : rows.get? k with
    | none => rfl
    | some x => exact absurd (h.row hk).2 (Int.not_lt.2 hle)
  · -- What the others have staged was numbered before.
    rw [hstaged hp] at hx
    exact Int.not_lt.2 hle (e ▸ (h.fresh hx).1)

/-- A number that nobody can commit but one owner is used by that owner or not at all. -/
theorem Retained.staged_or_unused (h : Retained id rows next staged o k) :
    (∃ x ∈ staged o, id x = k) ∨ Unused id rows next staged k := by
  by_cases hx : ∃ x ∈ staged o, id x = k
  · exact .inl hx
  · refine .inr ⟨h.given, h.row, fun {p x} hxp e => ?_⟩
    by_cases hp : p = o
    · exact hx ⟨x, hp ▸ hxp, e⟩
    · exact h.staged hp hxp e

/-- Others staged nothing meanwhile, and nothing was committed. -/
theorem Retained.of_same (h : Retained id rows next staged o k) {next' : Int}
    {staged' : Owner → List α} (hnext : next ≤ next')
    (hstaged : ∀ {p}, p ≠ o → staged' p = staged p) : Retained id rows next' staged' o k :=
  ⟨h.given.trans_le hnext, h.row, fun hp hx => h.staged hp (by rwa [← hstaged hp])⟩

end Retained

/-- Numbers of accounts, transfers and entries that are not to be used again. -/
structure Spent where
  account : Int → Prop := fun _ => False
  transfer : Int → Prop := fun _ => False
  entry : Int → Prop := fun _ => False

namespace Bank

/-- **Every number that a bank gives next is new,** and those that are spent are in use no more. -/
structure Fresh (b : Bank) (spent : Spent) : Prop where
  account : ∀ {a}, b.accounts.contains a = true → a < b.nextAccount ∧ ¬ spent.account a
  deleted : ∀ {a}, spent.account a → a < b.nextAccount
  transfers : Numbered spent.transfer Transfer.id b.transfers b.nextTransfer fun o =>
    (b.work o).transfers
  entries : Numbered spent.entry Entry.id b.entries b.nextEntry fun o => (b.work o).entries

variable {spent : Spent} {b b' : Bank} {o : Owner} {awaits : Owner → Option Int}
  {a delta balance : Int}

theorem fresh_empty (nonNegative : Bool) : (Bank.empty nonNegative).Fresh {} where
  account := fun ha => (nomatch ha)
  deleted := False.elim
  transfers := ⟨fun hx => (nomatch hx), fun hx => (nomatch hx), fun _ => List.nodup_nil,
    fun hx => (nomatch hx), False.elim⟩
  entries := ⟨fun hx => (nomatch hx), fun hx => (nomatch hx), fun _ => List.nodup_nil,
    fun hx => (nomatch hx), False.elim⟩

namespace Fresh

theorem nextAccount (h : b.Fresh spent) : b.accounts.get? b.nextAccount = none := by
  cases hr : b.accounts.get? b.nextAccount with
  | none => rfl
  | some r => exact absurd (h.account (Table.contains_iff.2 ⟨r, hr⟩)).1 (lt_irrefl _)

/-- Only what is staged and committed matters, and which accounts exist. -/
theorem of_same (h : b.Fresh spent) (hnext : b'.nextAccount = b.nextAccount)
    (haccounts : ∀ k, b'.accounts.contains k = true → b.accounts.contains k = true)
    (htransfers : b'.transfers = b.transfers ∧ b'.nextTransfer = b.nextTransfer)
    (hentries : b'.entries = b.entries ∧ b'.nextEntry = b.nextEntry)
    (hstaged : ∀ o, (b'.work o).transfers = (b.work o).transfers ∧
      (b'.work o).entries = (b.work o).entries) : b'.Fresh spent where
  account ha := by
    rw [hnext]
    exact h.account (haccounts _ ha)
  deleted ha := by
    rw [hnext]
    exact h.deleted ha
  transfers := by
    rw [htransfers.1, htransfers.2, show (fun o => (b'.work o).transfers) =
      fun o => (b.work o).transfers from funext fun o => (hstaged o).1]
    exact h.transfers
  entries := by
    rw [hentries.1, hentries.2, show (fun o => (b'.work o).entries) =
      fun o => (b.work o).entries from funext fun o => (hstaged o).2]
    exact h.entries

theorem begin (h : b.Fresh spent) (o : Owner) : (b.begin o).Fresh spent :=
  h.of_same rfl (fun _ hk => hk) ⟨rfl, rfl⟩ ⟨rfl, rfl⟩ fun p => by
    rw [work_begin]
    exact ⟨rfl, rfl⟩

theorem with_locks (h : b.Fresh spent) (locks : Table Lock) :
    ({ b with locks } : Bank).Fresh spent :=
  ⟨h.account, h.deleted, h.transfers, h.entries⟩

theorem addPin (h : b.Fresh spent) (ho : b.IsOpen o) (a : Int) : (b.addPin o a).Fresh spent := by
  refine h.of_same rfl (fun k hk => by rwa [contains_addPin] at hk) ⟨rfl, rfl⟩ ⟨rfl, rfl⟩
    fun p => ?_
  rw [work_addPin a ho]
  by_cases hp : p = o
  · rw [hp, update_self]
    exact ⟨rfl, rfl⟩
  · rw [update_of_ne hp]
    exact ⟨rfl, rfl⟩

theorem stageTransfer (h : b.Fresh spent) (ho : b.IsOpen o) {t : Transfer}
    (ht : t.id = b.nextTransfer) : (b.stageTransfer o t).Fresh spent := by
  have hwork : (b.stageTransfer o t).work = update b.work o
      { b.work o with transfers := (b.work o).transfers ++ [t] } :=
    work_modifyWork (b := { b with nextTransfer := b.nextTransfer + 1 }) ho _
  have htransfers : (fun p => ((b.stageTransfer o t).work p).transfers) =
      update (fun p => (b.work p).transfers) o ((b.work o).transfers ++ [t]) := by
    funext p
    rw [hwork, Function.apply_update (fun _ w => Work.transfers w)]
  have hentries : (fun p => ((b.stageTransfer o t).work p).entries) =
      fun p => (b.work p).entries := by
    funext p
    rw [hwork, Function.apply_update (fun _ w => Work.entries w), Function.update_eq_self]
  refine ⟨h.account, h.deleted, ?_, ?_⟩
  · rw [htransfers]
    exact h.transfers.stage ht
  · rw [hentries]
    exact h.entries

theorem stageEntry (h : b.Fresh spent) (ho : b.IsOpen o) {e : Entry} (he : e.id = b.nextEntry) :
    (b.stageEntry o e).Fresh spent := by
  have hwork : (b.stageEntry o e).work = update b.work o
      { b.work o with entries := (b.work o).entries ++ [e] } :=
    work_modifyWork (b := { b with nextEntry := b.nextEntry + 1 }) ho _
  have htransfers : (fun p => ((b.stageEntry o e).work p).transfers) =
      fun p => (b.work p).transfers := by
    funext p
    rw [hwork, Function.apply_update (fun _ w => Work.transfers w), Function.update_eq_self]
  have hentries : (fun p => ((b.stageEntry o e).work p).entries) =
      update (fun p => (b.work p).entries) o ((b.work o).entries ++ [e]) := by
    funext p
    rw [hwork, Function.apply_update (fun _ w => Work.entries w)]
  refine ⟨h.account, h.deleted, ?_, ?_⟩
  · rw [htransfers]
    exact h.transfers
  · rw [hentries]
    exact h.entries.stage he

theorem createTransfer (h : b.Fresh spent) (ho : b.IsOpen o) (n : NewTransfer) :
    (b.createTransfer o n).2.Fresh spent := by
  rcases createTransfer_cases b o n with ⟨-, heq⟩ | ⟨-, -, heq⟩ | ⟨-, -, t, rfl, heq⟩
  · rw [heq]
    exact h
  · rw [heq]
    exact h.addPin ho _
  · rw [heq]
    have ho₁ : (b.addPin o n.source).IsOpen o := by simpa using ho
    have ho₂ : ((b.addPin o n.source).addPin o n.target).IsOpen o := by simpa using ho
    exact ((h.addPin ho _).addPin ho₁ _).stageTransfer ho₂ rfl

theorem createEntry (h : b.Fresh spent) (ho : b.IsOpen o) (n : NewEntry) :
    (b.createEntry o n).2.Fresh spent := by
  rcases createEntry_cases b o n with ⟨-, heq⟩ | ⟨-, e, rfl, heq⟩
  · rw [heq]
    exact h
  · rw [heq]
    have ho₁ : (b.addPin o n.account).IsOpen o := by simpa using ho
    exact (h.addPin ho _).stageEntry ho₁ rfl

theorem hold (h : b.Fresh spent) (ho : b.IsOpen o) (a : Int) : (b.hold o a).Fresh spent := by
  cases hr : b.accounts.get? a with
  | none =>
      unfold Bank.hold
      rw [hr]
      exact h
  | some r =>
      rw [hold_eq hr]
      refine h.of_same rfl (fun k hk => hk) ⟨rfl, rfl⟩ ⟨rfl, rfl⟩ fun p => ?_
      rw [work_modifyWork ho]
      by_cases hp : p = o
      · rw [hp, update_self]
        exact ⟨rfl, rfl⟩
      · rw [update_of_ne hp]
        exact ⟨rfl, rfl⟩

theorem adjust (h : b.Fresh spent) (a delta : Int) : (b.adjust a delta).2.Fresh spent := by
  obtain ⟨accounts, heq, hcontains⟩ := adjust_accounts b a delta
  rw [heq]
  exact ⟨fun {k} hk => h.account (by rwa [hcontains] at hk), h.deleted, h.transfers, h.entries⟩

theorem addBalance (h : b.Fresh spent) (hb : b.Sound awaits) (ho : b.IsOpen o)
    (ha : awaits o = none ∨ awaits o = some a) (delta : Int) :
    (b.addBalance o a delta).2.Fresh spent := by
  rcases hb.addBalance_cases ho ha delta with ⟨locks, heq, -⟩ | ⟨locks, heq, -⟩ |
    ⟨b', heq, -, -, -, -, hcase⟩
  · rw [heq]
    exact h.with_locks locks
  · rw [heq]
    exact h.with_locks locks
  · rw [heq]
    refine Fresh.adjust ?_ a delta
    rcases hcase with rfl | ⟨-, r, -, -, locks, rfl⟩
    · exact h
    · exact (h.with_locks locks).hold ho a

theorem contains_closed {left : Int → Row → Account × Account} {transfers : Table Transfer}
    {entries : Table Entry} (k : Int) :
    (b.closed o left transfers entries).accounts.contains k = b.accounts.contains k := by
  unfold Bank.closed Table.contains
  rw [Table.get?_collect]
  cases b.accounts.get? k <;> rfl

theorem staged_closed {left : Int → Row → Account × Account} {transfers : Table Transfer}
    {entries : Table Entry} :
    (fun p => ((b.closed o left transfers entries).work p).transfers) =
      update (fun p => (b.work p).transfers) o [] ∧
    (fun p => ((b.closed o left transfers entries).work p).entries) =
      update (fun p => (b.work p).entries) o [] := by
  constructor
  · funext p
    rw [work_closed, Function.apply_update (fun _ w => Work.transfers w)]
  · funext p
    rw [work_closed, Function.apply_update (fun _ w => Work.entries w)]

theorem rollback (h : b.Fresh spent) (hn : (b.heldBy o).Nodup) : (b.rollback o).Fresh spent := by
  rw [rollback_eq_closed hn]
  refine ⟨fun {k} hk => h.account (by rwa [contains_closed] at hk), h.deleted, ?_, ?_⟩
  · rw [staged_closed.1]
    exact h.transfers.discard
  · rw [staged_closed.2]
    exact h.entries.discard

theorem commit (h : b.Fresh spent) (ho : b.IsOpen o) (hn : (b.heldBy o).Nodup) :
    (b.commit o).Fresh spent := by
  rw [commit_eq_closed ho hn]
  refine ⟨fun {k} hk => h.account (by rwa [contains_closed] at hk), h.deleted, ?_, ?_⟩
  · rw [staged_closed.1]
    exact h.transfers.commit
  · rw [staged_closed.2]
    exact h.entries.commit

theorem createAccount (h : b.Fresh spent) (n : NewAccount) :
    (b.createAccount n).2.Fresh spent := by
  have hnext : b.nextAccount < b.nextAccount + 1 := Int.lt_succ _
  have hold : ∀ {k}, b.accounts.contains k = true → k < b.nextAccount + 1 ∧ ¬ spent.account k :=
    fun hk => ⟨(h.account hk).1.trans hnext, (h.account hk).2⟩
  have hdeleted : ∀ {k}, spent.account k → k < b.nextAccount + 1 := fun hk =>
    (h.deleted hk).trans hnext
  rcases createAccount_cases b n with ⟨-, -, heq⟩ | ⟨-, account, -, heq⟩
  · rw [heq]
    exact ⟨hold, hdeleted, h.transfers, h.entries⟩
  · rw [heq]
    refine ⟨fun {k} hk => ?_, hdeleted, h.transfers, h.entries⟩
    rw [Table.contains_insert, Bool.or_eq_true, decide_eq_true_eq] at hk
    rcases hk with rfl | hk
    · exact ⟨hnext, fun hs => lt_irrefl _ (h.deleted hs)⟩
    · exact hold hk

theorem with_accounts (h : b.Fresh spent) (locks : Table Lock) {accounts : Table Row}
    (hsub : ∀ k, accounts.contains k = true → b.accounts.contains k = true) :
    ({ b with accounts, locks } : Bank).Fresh spent :=
  ⟨fun hk => h.account (hsub _ hk), h.deleted, h.transfers, h.entries⟩

theorem tick (h : b.Fresh spent) (clock : Timestamp) : ({ b with clock } : Bank).Fresh spent :=
  ⟨h.account, h.deleted, h.transfers, h.entries⟩

end Fresh

/-- The numbers that a bank has given and that are in use no more. -/
def usedUp (b : Bank) : Spent where
  account a := a < b.nextAccount ∧ b.accounts.get? a = none
  transfer := Unused Transfer.id b.transfers b.nextTransfer fun o => (b.work o).transfers
  entry := Unused Entry.id b.entries b.nextEntry fun o => (b.work o).entries

/-- Numbers that are in use no more can be held to be spent from now on. -/
theorem Fresh.spend (h : b.Fresh spent) : b.Fresh b.usedUp where
  account ha := by
    refine ⟨(h.account ha).1, fun hs => ?_⟩
    rw [Table.contains_eq_false_iff.2 hs.2] at ha
    cases ha
  deleted hs := hs.1
  transfers := h.transfers.spend
  entries := h.entries.spend

end Bank

end DoubleEntry
