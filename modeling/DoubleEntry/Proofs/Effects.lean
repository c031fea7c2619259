import DoubleEntry.Proofs.Ledger
set_option autoImplicit false

/-! # What takes effect on a ledger

The statements that change a ledger at once, and the commit of a unit of work. A ledger allows an
effect when the operations behind it, done on that ledger with nothing else going on, would all have
succeeded with the answers that they have.
-/

namespace DoubleEntry

/-- Something that took effect on a ledger, with the answers that were given. -/
inductive Effect where
  | opened (n : NewAccount) (answer : Account)
  | updated (account balance : Int) (answer : Account)
  | deleted (account : Int)
  | committed (ds : List Deed)
  deriving DecidableEq, Repr

/-- What an answer to the opening of an account brings about. -/
def Effect.ofOpening (n : NewAccount) : Except LedgerError Account → List Effect
  | .ok account => [.opened n account]
  | .error _ => []

/-- The balance that an effect sets, whatever it was before. -/
def Effect.set? : Effect → Option Int
  | .opened n _ => some n.balance
  | .updated _ balance _ => some balance
  | .deleted _ | .committed _ => none

namespace Ledger

/-- Whether an entry or a transfer names an account. -/
def Refers (l : Ledger) (a : Int) : Prop :=
  (∃ k e, l.entries.get? k = some e ∧ e.account = a) ∨
    ∃ k t, l.transfers.get? k = some t ∧ (t.source = a ∨ t.target = a)

/-- The rows that deeds stage have numbers that neither the ledger has nor another of these rows. -/
structure New (l : Ledger) (ds : List Deed) : Prop where
  transfers : ((ds.filterMap Deed.transfer?).map Transfer.id).Nodup
  transfer : ∀ t ∈ ds.filterMap Deed.transfer?, l.transfers.get? t.id = none
  entries : ((ds.filterMap Deed.entry?).map Entry.id).Nodup
  entry : ∀ e ∈ ds.filterMap Deed.entry?, l.entries.get? e.id = none

/-- What an effect does to a ledger. -/
def apply (l : Ledger) : Effect → Ledger
  | .opened _ answer => { l with accounts := l.accounts.insert answer.id answer }
  | .updated a _ answer => { l with accounts := l.accounts.insert a answer }
  | .deleted a => { l with accounts := l.accounts.erase a }
  | .committed ds => l.enactAll ds

/-- What effects do to a ledger, one after the other. -/
def applyAll (l : Ledger) (es : List Effect) : Ledger := es.foldl apply l

/-- Whether a ledger allows an effect. -/
def Allows (nonNegative : Bool) (l : Ledger) : Effect → Prop
  | .opened n answer => l.accounts.get? answer.id = none ∧
      answer = ⟨answer.id, n.owner, n.balance, n.currency.code, answer.createdAt⟩ ∧
      (nonNegative = true → 0 ≤ n.balance)
  | .updated a balance answer => ∃ account, l.accounts.get? a = some account ∧
      answer = { account with balance } ∧ (nonNegative = true → 0 ≤ balance)
  | .deleted a => l.accounts.contains a = true ∧ ¬ l.Refers a
  | .committed ds => l.AdmitsAll nonNegative ds ∧ l.New ds

/-- Whether effects are allowed, one after the other. -/
def AllowsAll (nonNegative : Bool) : Ledger → List Effect → Prop
  | _, [] => True
  | l, e :: es => l.Allows nonNegative e ∧ AllowsAll nonNegative (l.apply e) es

variable {nonNegative : Bool} {l : Ledger} {e : Effect} {es es' : List Effect}

@[simp] theorem applyAll_nil (l : Ledger) : l.applyAll [] = l := rfl

@[simp] theorem applyAll_cons (l : Ledger) (e : Effect) (es : List Effect) :
    l.applyAll (e :: es) = (l.apply e).applyAll es := rfl

theorem applyAll_append (l : Ledger) (es es' : List Effect) :
    l.applyAll (es ++ es') = (l.applyAll es).applyAll es' := List.foldl_append

theorem allowsAll_append : AllowsAll nonNegative l (es ++ es') ↔
    AllowsAll nonNegative l es ∧ AllowsAll nonNegative (l.applyAll es) es' := by
  induction es generalizing l with
  | nil => simp [AllowsAll]
  | cons e es ih => simp only [List.cons_append, AllowsAll, applyAll_cons, ih, and_assoc]

theorem allowsAll_singleton : AllowsAll nonNegative l [e] ↔ l.Allows nonNegative e := by
  simp [AllowsAll]

/-! ## What holds of every balance -/

/-- Every committed balance has a property. -/
def Balances (P : Int → Prop) (l : Ledger) : Prop :=
  ∀ a x, l.accounts.get? a = some x → P x.balance

namespace Balances

variable {P : Int → Prop} {ds : List Deed}

theorem empty : ({} : Ledger).Balances P := fun _ _ hx => nomatch hx

theorem insert (h : l.Balances P) (a : Int) {x : Account} (hx : P x.balance) :
    ({ l with accounts := l.accounts.insert a x } : Ledger).Balances P := by
  intro k y hy
  rcases Table.get?_insert_eq_some.1 hy with ⟨-, rfl⟩ | ⟨-, hy⟩
  · exact hx
  · exact h k y hy

section Adjusted

variable (hadjusted : ∀ b, Amount.InRange b → (nonNegative = true → 0 ≤ b) → P b)
include hadjusted

/-- What holds of every balance that passes the checks of an adjustment is kept by deeds. -/
theorem enactAll (h : l.Balances P) (hds : l.AdmitsAll nonNegative ds) :
    (l.enactAll ds).Balances P := by
  induction ds generalizing l with
  | nil => exact h
  | cons d ds ih =>
      refine ih ?_ hds.2
      cases d with
      | adjustment a delta answer =>
          obtain ⟨x, -, -, hrange, hbalance⟩ := hds.1
          exact h.insert a (hadjusted _ hrange hbalance)
      | _ => exact h

theorem apply (h : l.Balances P) (he : l.Allows nonNegative e)
    (hset : ∀ b, e.set? = some b → (nonNegative = true → 0 ≤ b) → P b) :
    (l.apply e).Balances P := by
  cases e with
  | opened n answer =>
      obtain ⟨-, hanswer, hbalance⟩ := he
      have hx : P answer.balance := by
        rw [hanswer]
        exact hset n.balance rfl hbalance
      exact h.insert answer.id hx
  | updated a balance answer =>
      obtain ⟨x, -, rfl, hbalance⟩ := he
      exact h.insert a (hset balance rfl hbalance)
  | deleted a => exact fun k y hy => h k y (Table.get?_erase_eq_some.1 hy).2
  | committed ds => exact h.enactAll hadjusted he.1

/-- **What holds of the balances that are set,** and of those that pass the checks of an adjustment,
holds of every balance. -/
theorem applyAll (h : l.Balances P) (hes : l.AllowsAll nonNegative es)
    (hset : ∀ e ∈ es, ∀ b, e.set? = some b → (nonNegative = true → 0 ≤ b) → P b) :
    (l.applyAll es).Balances P := by
  induction es generalizing l with
  | nil => exact h
  | cons e es ih =>
      obtain ⟨he, hrest⟩ := List.forall_mem_cons.1 hset
      exact ih (h.apply hadjusted hes.1 he) hes.2 hrest

end Adjusted

end Balances

end Ledger

/-- Whether an account is referred to can be read off the tables. -/
theorem Bank.isReferenced_iff {b : Bank} {a : Int} :
    b.isReferenced a = true ↔ b.ledger.Refers a := by
  simp only [Bank.isReferenced, Bool.or_eq_true, List.any_eq_true, Table.mem_toList_iff,
    decide_eq_true_eq]
  constructor
  · rintro (⟨e, ⟨k, hk⟩, he⟩ | ⟨t, ⟨k, hk⟩, ht⟩)
    · exact .inl ⟨k, e, hk, he⟩
    · exact .inr ⟨k, t, hk, ht⟩
  · rintro (⟨k, e, hk, he⟩ | ⟨k, t, hk, ht⟩)
    · exact .inl ⟨e, ⟨k, hk⟩, he⟩
    · exact .inr ⟨t, ⟨k, hk⟩, ht⟩

end DoubleEntry
