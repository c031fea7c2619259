import DoubleEntry.Bank.Publication
import DoubleEntry.Proofs.Hall
set_option autoImplicit false

/-! # In the middle of a commit

A commit writes its rows one after the other (`Bank.commit_eq_conclude`). What it has written so far
is another ledger than the one that its bank had before, and all that differs: the bank shows that
ledger (`Bank.showing`). Whatever is done in other units of work meanwhile, and whatever waits or
fails, does not look at what is shown and does not touch it (`Hall.after_showing`), so that it makes
no difference whether it is done before the commit or in the middle of it.
-/

namespace DoubleEntry

open Function (update)

namespace Posting

/-- The transfer that is written. -/
def transfer? : Posting → Option Transfer
  | .transfer t => some t
  | _ => none

/-- The entry that is written. -/
def entry? : Posting → Option Entry
  | .entry e => some e
  | _ => none

/-- The account whose row is written. -/
def account? : Posting → Option Int
  | .account number => some number
  | _ => none

end Posting

section Postings

variable (w : Work)

theorem Work.transfers_postings : w.postings.filterMap Posting.transfer? = w.transfers := by
  simp [postings, Posting.transfer?, List.filterMap_append, List.filterMap_map, Function.comp_def]

theorem Work.entries_postings : w.postings.filterMap Posting.entry? = w.entries := by
  simp [postings, Posting.entry?, List.filterMap_append, List.filterMap_map, Function.comp_def]

theorem Work.accounts_postings : w.postings.filterMap Posting.account? = w.locked := by
  simp [postings, locked, Posting.account?, List.filterMap_append, List.filterMap_map,
    Function.comp_def]

end Postings

namespace Bank

variable {b b' : Bank} {o : Owner} {ps : List Posting}

/-! ## Writing rows -/

/-- **What rows that are written change.** -/
theorem postAll_eq (b : Bank) (ps : List Posting) : b.postAll ps = { b with
    transfers := (ps.filterMap Posting.transfer?).foldl (fun t x => t.insert x.id x) b.transfers
    entries := (ps.filterMap Posting.entry?).foldl (fun t x => t.insert x.id x) b.entries
    accounts := b.accounts.collect fun a r => some
      (if a ∈ ps.filterMap Posting.account? then { r with committed := r.working } else r) } := by
  induction ps generalizing b with
  | nil => exact eq_with_accounts (Table.collect_eq_self (by simp)).symm
  | cons p ps ih =>
      have hstep : b.postAll (p :: ps) = (b.post p).postAll ps := rfl
      rw [hstep, ih]
      cases p with
      | transfer t => rfl
      | entry e => rfl
      | account number =>
          unfold post modifyRow
          dsimp only
          rw [Table.collect_modify]
          congr 2
          funext a r
          by_cases ha : a = number
          · simp [ha, Posting.account?]
          · simp [ha, Posting.account?]

theorem postAll_concat (b : Bank) (ps : List Posting) (p : Posting) :
    b.postAll (ps ++ [p]) = (b.postAll ps).post p := by
  unfold postAll
  rw [List.foldl_append]
  rfl

theorem postAll_postings (b : Bank) (w : Work) :
    b.postAll w.postings = (b.insertStaged w).publish w.held := by
  rw [postAll_eq, publish_eq, w.transfers_postings, w.entries_postings, w.accounts_postings]
  rfl

/-- **A commit writes its rows one after the other,** and then gives back what it has locked and
pinned. -/
theorem commit_eq_conclude (ho : b.IsOpen o) :
    b.commit o = (b.postAll (b.work o).postings).conclude o := by
  have hwork : (b.postAll (b.work o).postings).work = b.work := by
    rw [postAll_eq]
    rfl
  unfold commit conclude
  rw [work?_of_isOpen ho, hwork, postAll_postings]

/-! ## Showing another ledger -/

/-- A bank that shows a ledger in the place of what is committed. A row that the ledger does not
have shows what is committed. -/
def showing (b : Bank) (l : Ledger) : Bank :=
  { b with
    accounts := b.accounts.collect fun a r => some
      { r with committed := (l.accounts.get? a).getD r.committed }
    entries := l.entries
    transfers := l.transfers }

section Showing

variable (b : Bank) (l : Ledger)

theorem get?_showing (a : Int) : (b.showing l).accounts.get? a = (b.accounts.get? a).map fun r =>
    { r with committed := (l.accounts.get? a).getD r.committed } := by
  unfold showing
  rw [Table.get?_collect]
  cases b.accounts.get? a <;> rfl

@[simp] theorem contains_showing (a : Int) :
    (b.showing l).accounts.contains a = b.accounts.contains a := by
  unfold Table.contains
  rw [get?_showing, Option.isSome_map]

/-- What leaves the committed version alone does not notice what is shown. -/
theorem modifyRow_showing (a : Int) {f : Row → Row}
    (hf : ∀ r x, f { r with committed := x } = { f r with committed := x }) :
    (b.showing l).modifyRow a f = (b.modifyRow a f).showing l := by
  have hsame : ∀ r, (f r).committed = r.committed :=
    fun r => (congrArg Row.committed (hf r r.committed)).trans rfl
  refine (eq_with_accounts (Table.ext fun k => ?_) : (b.showing l).modifyRow a f = _)
  rw [accounts_modifyRow, Table.get?_modify, get?_showing, Table.get?_collect, accounts_modifyRow,
    Table.get?_modify]
  by_cases hk : k = a
  · rw [if_pos hk, if_pos hk]
    cases b.accounts.get? k with
    | none => rfl
    | some r =>
        dsimp only [Option.map_some, Option.bind_some]
        rw [hf, hsame]
  · rw [if_neg hk, if_neg hk]
    cases b.accounts.get? k <;> rfl

theorem release_showing (a : Int) : (b.showing l).release a = (b.release a).showing l := by
  rw [release_eq, release_eq]
  rfl

theorem releaseAll_showing (held : List Hold) :
    (b.showing l).releaseAll held = (b.releaseAll held).showing l := by
  induction held generalizing b with
  | nil => rfl
  | cons h rest ih =>
      show ((b.showing l).release h.account).releaseAll rest = _
      rw [release_showing, ih]
      rfl

theorem unpinAll_showing (accounts : List Int) :
    (b.showing l).unpinAll accounts = (b.unpinAll accounts).showing l := by
  induction accounts generalizing b with
  | nil => rfl
  | cons a rest ih =>
      show ((b.showing l).unpin a).unpinAll rest = _
      unfold unpin
      rw [modifyRow_showing b l a fun _ _ => rfl, ih]
      rfl

theorem restore_showing (held : List Hold) :
    (b.showing l).restore held = (b.restore held).showing l := by
  induction held generalizing b with
  | nil => rfl
  | cons h rest ih =>
      show ((b.showing l).modifyRow h.account _).restore rest = _
      rw [modifyRow_showing b l h.account fun _ _ => rfl, ih]
      rfl

theorem rollback_showing (o : Owner) : (b.showing l).rollback o = (b.rollback o).showing l := by
  unfold rollback
  rw [show (b.showing l).work? o = b.work? o from rfl]
  cases b.work? o with
  | none => rfl
  | some w =>
      dsimp only
      rw [restore_showing, releaseAll_showing, unpinAll_showing]
      rfl

theorem abandon_showing (o : Owner) (a : Int) :
    (b.showing l).abandon o a = (b.abandon o a).showing l := by
  unfold abandon
  rw [show (b.showing l).locks = b.locks from rfl]
  cases b.locks.get? a with
  | none => rfl
  | some lock =>
      dsimp only
      split
      · exact release_showing b l a
      · rfl

theorem acquire_showing (o : Owner) (a : Int) :
    (b.showing l).acquire o a = (b.acquire o a).map id (·.showing l) := by
  unfold acquire
  rw [show (b.showing l).locks = b.locks from rfl, contains_showing, release_showing]
  cases b.locks.get? a with
  | none =>
      dsimp only
      split <;> rfl
  | some lock =>
      dsimp only
      split
      · split <;> rfl
      · split
        · rfl
        · split <;> rfl

/-! ## Calls in a unit of work -/

theorem pin_showing (o : Owner) (kind : StagedKind) (a : Int) :
    (b.showing l).pin o kind a = (b.pin o kind a).map id (·.showing l) := by
  unfold pin
  rw [contains_showing]
  split
  · rw [modifyRow_showing b l a fun _ _ => rfl]
    rfl
  · rfl

theorem createTransfer_showing (o : Owner) (n : NewTransfer) :
    (b.showing l).createTransfer o n = (b.createTransfer o n).map id (·.showing l) := by
  unfold createTransfer
  rw [pin_showing]
  rcases b.pin o .transfer n.source with ⟨_ | _, b'⟩
  · rfl
  · dsimp only [Prod.map, id]
    rw [pin_showing]
    rcases b'.pin o .transfer n.target with ⟨_ | _, b''⟩ <;> rfl

theorem createEntry_showing (o : Owner) (n : NewEntry) :
    (b.showing l).createEntry o n = (b.createEntry o n).map id (·.showing l) := by
  unfold createEntry
  rw [pin_showing]
  rcases b.pin o .entry n.account with ⟨_ | _, b'⟩ <;> rfl

theorem adjust_showing (a delta : Int) :
    (b.showing l).adjust a delta = (b.adjust a delta).map id (·.showing l) := by
  unfold adjust
  rw [get?_showing]
  cases b.accounts.get? a with
  | none => rfl
  | some r =>
      dsimp only [Option.map_some]
      cases Amount.add? r.working.balance delta with
      | none => rfl
      | some balance =>
          dsimp only
          rw [show (b.showing l).checkBalance a balance = b.checkBalance a balance from rfl]
          cases b.checkBalance a balance with
          | error e => rfl
          | ok _ =>
              dsimp only
              rw [modifyRow_showing b l a fun _ _ => rfl]
              rfl

theorem hold_showing (o : Owner) (a : Int) :
    (b.showing l).hold o a = (b.hold o a).showing l := by
  unfold hold
  rw [get?_showing]
  cases b.accounts.get? a <;> rfl

theorem addBalance_showing (o : Owner) (a delta : Int) :
    (b.showing l).addBalance o a delta = (b.addBalance o a delta).map id (·.showing l) := by
  unfold addBalance
  rw [show (b.showing l).work o = b.work o from rfl, acquire_showing, adjust_showing]
  split
  · rfl
  · rcases b.acquire o a with ⟨_ | _ | _, b'⟩
    · dsimp only [Prod.map, id]
      rw [hold_showing, adjust_showing]
      rfl
    · rfl
    · rfl

/-- **A call in a unit of work does not notice what is shown,** if it is not the commit. -/
theorem perform_showing (o : Owner) {c : Call} (hc : c ≠ .commit) :
    (store o).perform c (b.showing l) = ((store o).perform c b).map id (·.showing l) := by
  cases c with
  | begin => rfl
  | createTransfer n =>
      show Prod.map some id ((b.showing l).createTransfer o n) = _
      rw [createTransfer_showing]
      rfl
  | createEntry n =>
      show Prod.map some id ((b.showing l).createEntry o n) = _
      rw [createEntry_showing]
      rfl
  | addBalance account delta => exact addBalance_showing b l o account delta
  | commit => exact absurd rfl hc
  | rollback =>
      show (_, (b.showing l).rollback o) = _
      rw [rollback_showing]
      rfl

/-! ## Statements about accounts -/

/-- An account that is opened is one that the ledger does not have. -/
theorem createAccount_showing (hnew : l.accounts.get? b.nextAccount = none)
    (n : NewAccount) : (b.showing l).createAccount n = (b.createAccount n).map id (·.showing l) := by
  unfold createAccount
  dsimp only
  rw [show (b.showing l).nextAccount = b.nextAccount from rfl]
  rw [show ({ b.showing l with nextAccount := b.nextAccount + 1 } : Bank).checkBalance
    b.nextAccount n.balance = ({ b with nextAccount := b.nextAccount + 1 } : Bank).checkBalance
      b.nextAccount n.balance from rfl]
  cases ({ b with nextAccount := b.nextAccount + 1 } : Bank).checkBalance b.nextAccount
    n.balance with
  | error e => rfl
  | ok _ =>
      refine Prod.ext rfl (eq_with_accounts (Table.ext fun k => ?_))
      show ((b.showing l).accounts.insert _ _).get? k = (Table.collect (Table.insert _ _ _) _).get? k
      rw [Table.get?_insert, Table.get?_collect, Table.get?_insert, get?_showing]
      by_cases hk : k = b.nextAccount
      · rw [if_pos hk, if_pos hk, Option.bind_some, hk, hnew]
        rfl
      · rw [if_neg hk, if_neg hk]
        cases b.accounts.get? k <;> rfl

/-- A change that waits or fails neither looks at what is shown nor touches it. -/
theorem updateAccount_showing {o : Owner} {a balance : Int}
    (hkept : ∀ x, ((b.showing l).updateAccount o a balance).1 ≠ some (.ok (some x))) :
    (b.showing l).updateAccount o a balance =
      (b.updateAccount o a balance).map id (·.showing l) := by
  unfold updateAccount at hkept ⊢
  rw [acquire_showing] at hkept ⊢
  generalize b.acquire o a = x at hkept ⊢
  obtain ⟨_ | _ | _, b'⟩ := x
  · dsimp only [Prod.map, id] at hkept ⊢
    rw [get?_showing, show (b'.showing l).checkBalance a balance = b'.checkBalance a balance from rfl]
      at hkept ⊢
    rw [release_showing]
    cases hcheck : b'.checkBalance a balance with
    | error e => rfl
    | ok _ =>
        cases hrow : b'.accounts.get? a with
        | none => rfl
        | some r =>
            rw [hcheck, hrow] at hkept
            exact absurd rfl (hkept _)
  · rfl
  · rfl

/-- A deletion that waits, or finds no row, neither looks at what is shown nor touches it. -/
theorem deleteAccount_showing {o : Owner} {a : Int}
    (hkept : ((b.showing l).deleteAccount o a).1 = none ∨
      ((b.showing l).deleteAccount o a).1 = some (.ok false)) :
    (b.showing l).deleteAccount o a = (b.deleteAccount o a).map id (·.showing l) := by
  unfold deleteAccount at hkept ⊢
  rw [acquire_showing] at hkept ⊢
  generalize b.acquire o a = x at hkept ⊢
  obtain ⟨_ | _ | _, b'⟩ := x
  · dsimp only [Prod.map, id] at hkept ⊢
    rw [get?_showing] at hkept ⊢
    rw [release_showing]
    cases hrow : b'.accounts.get? a with
    | none => rfl
    | some r =>
        rw [hrow] at hkept
        dsimp only [Option.map_some] at hkept
        split at hkept <;> simp at hkept
  · rfl
  · rfl

end Showing

end Bank

/-! ## Moves -/

namespace Hall

/-- Whether a move gets so far as to take the visibility: a commit, a statement that changes an
account, and one that looks whether anything refers to the account that it deletes. -/
def takesVisibility (h : Hall) : Move → Bool
  | .call _ c => c = .commit
  | .updateAccount number account balance =>
      match (h.bank.updateAccount (.call number) account balance).1 with
      | some (.ok (some _)) => true
      | _ => false
  | .deleteAccount number account =>
      match (h.bank.deleteAccount (.call number) account).1 with
      | none | some (.ok false) => false
      | _ => true
  | .leave _ | .drop _ | .createAccount _ | .tick _ => false

/-- A hall whose bank shows a ledger in the place of what is committed. -/
def showing (h : Hall) (l : Ledger) : Hall := { h with bank := h.bank.showing l }

variable {h : Hall} {l : Ledger} {m : Move}

theorem takesVisibility_updateAccount {number : Nat} {account balance : Int} :
    h.takesVisibility (.updateAccount number account balance) = false ↔
      ∀ x, (h.bank.updateAccount (.call number) account balance).1 ≠ some (.ok (some x)) := by
  unfold takesVisibility
  dsimp only
  rcases (h.bank.updateAccount (.call number) account balance).1 with _ | e | _ | x <;> simp

theorem takesVisibility_deleteAccount {number : Nat} {account : Int} :
    h.takesVisibility (.deleteAccount number account) = false ↔
      (h.bank.deleteAccount (.call number) account).1 = none ∨
        (h.bank.deleteAccount (.call number) account).1 = some (.ok false) := by
  unfold takesVisibility
  dsimp only
  rcases (h.bank.deleteAccount (.call number) account).1 with _ | e | _ | _ <;> simp

theorem leave_showing (h : Hall) (l : Ledger) (o : Owner) :
    (h.showing l).leave o = (h.leave o).showing l := by
  unfold leave
  rw [show (h.showing l).awaits o = h.awaits o from rfl]
  cases h.awaits o with
  | none => rfl
  | some a =>
      unfold showing
      dsimp only
      rw [h.bank.abandon_showing l o a]

/-- **A move that does not take the visibility does not notice what is shown,** and it does not take
the visibility whatever is shown. -/
theorem after_showing (hm : (h.showing l).takesVisibility m = false)
    (hnew : l.accounts.get? h.bank.nextAccount = none) :
    (h.showing l).after m = (h.after m).showing l ∧ h.takesVisibility m = false := by
  cases m with
  | call o c =>
      have hc : c ≠ .commit := of_decide_eq_false hm
      refine ⟨?_, hm⟩
      by_cases hmay : h.MayCall o c
      · rw [after_call hmay, after_call (h := h.showing l) hmay]
        unfold Hall.call
        rw [show (h.showing l).bank = h.bank.showing l from rfl, h.bank.perform_showing l o hc]
        rfl
      · rw [show h.after (.call o c) = h from if_neg hmay]
        exact if_neg hmay
  | leave o => exact ⟨h.leave_showing l o, rfl⟩
  | drop o =>
      refine ⟨?_, rfl⟩
      show (h.showing l).drop o = (h.drop o).showing l
      unfold drop
      rw [leave_showing]
      unfold showing
      dsimp only
      rw [(h.leave o).bank.rollback_showing l o]
  | createAccount n =>
      refine ⟨?_, rfl⟩
      unfold after showing
      dsimp only
      rw [h.bank.createAccount_showing l hnew]
      rfl
  | updateAccount number account balance =>
      rw [takesVisibility_updateAccount] at hm ⊢
      have hsame := h.bank.updateAccount_showing l hm
      refine ⟨?_, fun x hx => hm x ?_⟩
      · by_cases hmay : h.MayState number account
        · rw [after_updateAccount hmay, after_updateAccount (h := h.showing l) hmay]
          exact congrArg ((h.showing l).state number account) hsame
        · rw [show h.after (.updateAccount number account balance) = h from if_neg hmay]
          exact if_neg hmay
      · exact (congrArg Prod.fst hsame).trans hx
  | deleteAccount number account =>
      rw [takesVisibility_deleteAccount] at hm ⊢
      have hsame := h.bank.deleteAccount_showing l hm
      refine ⟨?_, ?_⟩
      · by_cases hmay : h.MayState number account
        · rw [after_deleteAccount hmay, after_deleteAccount (h := h.showing l) hmay]
          exact congrArg ((h.showing l).state number account) hsame
        · rw [show h.after (.deleteAccount number account) = h from if_neg hmay]
          exact if_neg hmay
      · rw [show (h.bank.deleteAccount (.call number) account).1 = _ from
          (congrArg Prod.fst hsame).symm]
        exact hm
  | tick now => exact ⟨rfl, rfl⟩

end Hall

end DoubleEntry
