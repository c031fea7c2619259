import DoubleEntry.Amount
import DoubleEntry.Bank.Query
import Mathlib.Tactic
set_option autoImplicit false

/-! # What is committed, and what is done to it

The ledger of a bank is what its readers see. A `Deed` is an operation of a unit of work that
succeeded, together with its answer; enacting deeds on a ledger is what a commit amounts to. Deeds
are admitted by a ledger when each of them, done there in turn, would have given the same answer.
What is admitted depends only on the accounts that the deeds adjust and on whether the accounts
exist that they name (`AdmitsAll.congr`), which is why others may go on working meanwhile.
-/

namespace DoubleEntry

/-- All that readers see of a bank. -/
@[ext] structure Ledger where
  accounts : Table Account := .empty
  entries : Table Entry := .empty
  transfers : Table Transfer := .empty
  deriving DecidableEq

/-- The committed version of every row, and the committed entries and transfers. -/
def Bank.ledger (b : Bank) : Ledger where
  accounts := b.accounts.collect fun _ r => some r.committed
  entries := b.entries
  transfers := b.transfers

theorem Bank.get?_ledger (b : Bank) (a : Int) :
    b.ledger.accounts.get? a = (b.accounts.get? a).map Row.committed := by
  unfold Bank.ledger
  rw [Table.get?_collect]
  cases b.accounts.get? a <;> rfl

theorem Bank.getAccount_eq (b : Bank) (a : Int) : b.getAccount a = b.ledger.accounts.get? a :=
  (b.get?_ledger a).symm

theorem Bank.contains_ledger (b : Bank) (a : Int) :
    b.ledger.accounts.contains a = b.accounts.contains a := by
  unfold Table.contains
  rw [Bank.get?_ledger, Option.isSome_map]

/-- An operation of a unit of work that succeeded, with its answer. -/
inductive Deed where
  | transfer (t : Transfer)
  | entry (e : Entry)
  | adjustment (account delta : Int) (answer : Account)
  deriving DecidableEq, Repr

namespace Deed

/-- The transfer that was staged. -/
def transfer? : Deed → Option Transfer
  | .transfer t => some t
  | _ => none

/-- The entry that was staged. -/
def entry? : Deed → Option Entry
  | .entry e => some e
  | _ => none

/-- The accounts that a staged row names. -/
def named : Deed → List Int
  | .transfer t => [t.source, t.target]
  | .entry e => [e.account]
  | .adjustment .. => []

/-- The account whose balance was adjusted. -/
def adjusted? : Deed → Option Int
  | .adjustment a _ _ => some a
  | _ => none

/-- What a deed adds to the balance of an account. -/
def change (a : Int) : Deed → Int
  | .adjustment b delta _ => if b = a then delta else 0
  | _ => 0

/-- What a deed adds to the sum of all balances. -/
def delta : Deed → Int
  | .adjustment _ delta _ => delta
  | _ => 0

end Deed

theorem filterMap_concat {α β : Type} (f : α → Option β) (l : List α) (x : α) :
    (l ++ [x]).filterMap f = l.filterMap f ++ (f x).toList := by
  rw [List.filterMap_append]
  cases h : f x <;> simp [h]

namespace Ledger

/-- What a deed does to a ledger: a staged row is put in, an adjusted account replaced. -/
def enact (l : Ledger) : Deed → Ledger
  | .transfer t => { l with transfers := l.transfers.insert t.id t }
  | .entry e => { l with entries := l.entries.insert e.id e }
  | .adjustment a _ answer => { l with accounts := l.accounts.insert a answer }

/-- What deeds do to a ledger, one after the other. -/
def enactAll (l : Ledger) (ds : List Deed) : Ledger := ds.foldl enact l

/-- Whether a deed, done on a ledger, succeeds with the answer that it has. -/
def Admits (nonNegative : Bool) (l : Ledger) : Deed → Prop
  | .transfer t => l.accounts.contains t.source = true ∧ l.accounts.contains t.target = true
  | .entry e => l.accounts.contains e.account = true
  | .adjustment a delta answer => ∃ account, l.accounts.get? a = some account ∧
      answer = { account with balance := account.balance + delta } ∧
      Amount.InRange answer.balance ∧ (nonNegative = true → 0 ≤ answer.balance)

/-- Whether deeds, done one after the other, all succeed with the answers that they have. -/
def AdmitsAll (nonNegative : Bool) : Ledger → List Deed → Prop
  | _, [] => True
  | l, d :: ds => l.Admits nonNegative d ∧ AdmitsAll nonNegative (l.enact d) ds

variable {nonNegative : Bool} {l l' : Ledger} {d : Deed} {ds es : List Deed} {a : Int}

@[simp] theorem enactAll_nil (l : Ledger) : l.enactAll [] = l := rfl

@[simp] theorem enactAll_cons (l : Ledger) (d : Deed) (ds : List Deed) :
    l.enactAll (d :: ds) = (l.enact d).enactAll ds := rfl

theorem enactAll_concat (l : Ledger) (ds : List Deed) (d : Deed) :
    l.enactAll (ds ++ [d]) = (l.enactAll ds).enact d := by
  simp [enactAll]

theorem admitsAll_concat : AdmitsAll nonNegative l (ds ++ [d]) ↔
    AdmitsAll nonNegative l ds ∧ (l.enactAll ds).Admits nonNegative d := by
  induction ds generalizing l with
  | nil => simp [AdmitsAll]
  | cons e ds ih => simp only [List.cons_append, AdmitsAll, enactAll_cons, ih, and_assoc]

theorem transfers_enactAll (l : Ledger) (ds : List Deed) : (l.enactAll ds).transfers =
    (ds.filterMap Deed.transfer?).foldl (fun t x => t.insert x.id x) l.transfers := by
  induction ds generalizing l with
  | nil => rfl
  | cons d ds ih => cases d <;> exact ih _

theorem entries_enactAll (l : Ledger) (ds : List Deed) : (l.enactAll ds).entries =
    (ds.filterMap Deed.entry?).foldl (fun t x => t.insert x.id x) l.entries := by
  induction ds generalizing l with
  | nil => rfl
  | cons d ds ih => cases d <;> exact ih _

theorem get?_enact (l : Ledger) (d : Deed) (a : Int) : (l.enact d).accounts.get? a =
    match d with
    | .adjustment b _ answer => if a = b then some answer else l.accounts.get? a
    | _ => l.accounts.get? a := by
  cases d with
  | adjustment b delta answer => exact Table.get?_insert _ _ _ _
  | _ => rfl

/-- A row can be staged when the accounts exist that it names. -/
theorem admits_iff_of_staged (h : d.adjusted? = none) :
    l.Admits nonNegative d ↔ ∀ a ∈ d.named, l.accounts.contains a = true := by
  cases d with
  | adjustment b delta answer => cases h
  | _ => simp [Admits, Deed.named]

theorem get?_enact_of_staged (h : d.adjusted? = none) (a : Int) :
    (l.enact d).accounts.get? a = l.accounts.get? a := by
  cases d with
  | adjustment b delta answer => cases h
  | _ => rfl

/-- An account that no deed adjusts stays as it is. -/
theorem get?_enactAll_of_not_adjusted (h : ∀ d ∈ ds, d.adjusted? ≠ some a) :
    (l.enactAll ds).accounts.get? a = l.accounts.get? a := by
  induction ds generalizing l with
  | nil => rfl
  | cons d ds ih =>
      rw [enactAll_cons, ih fun e he => h e (List.mem_cons_of_mem _ he), get?_enact]
      have hd := h d List.mem_cons_self
      cases d with
      | adjustment b delta answer =>
          have hne : ¬ a = b := fun e => hd (by rw [e]; rfl)
          exact if_neg hne
      | _ => rfl

theorem contains_enact (hl : l.Admits nonNegative d) (a : Int) :
    (l.enact d).accounts.contains a = l.accounts.contains a := by
  unfold Table.contains
  rw [get?_enact]
  cases d with
  | adjustment b delta answer =>
      obtain ⟨account, hb, -⟩ := hl
      by_cases hab : a = b
      · simp [hab, hb]
      · simp [hab]
  | _ => rfl

/-- Deeds create and delete no account. -/
theorem contains_enactAll (hl : AdmitsAll nonNegative l ds) (a : Int) :
    (l.enactAll ds).accounts.contains a = l.accounts.contains a := by
  induction ds generalizing l with
  | nil => rfl
  | cons d ds ih =>
      obtain ⟨hd, hds⟩ := hl
      rw [enactAll_cons, ih hds, contains_enact hd]

/-- **Others may go on working:** deeds are admitted as long as the accounts that they adjust stay
the same and the accounts that they name exist. -/
theorem AdmitsAll.congr (h : AdmitsAll nonNegative l ds)
    (hsame : ∀ d ∈ ds, ∀ a, d.adjusted? = some a → l'.accounts.get? a = l.accounts.get? a)
    (hnamed : ∀ d ∈ ds, ∀ a ∈ d.named, l'.accounts.contains a = true) :
    AdmitsAll nonNegative l' ds := by
  induction ds generalizing l l' with
  | nil => trivial
  | cons d ds ih =>
      obtain ⟨hd, hds⟩ := h
      have hadmits : l'.Admits nonNegative d := by
        have hn := hnamed d List.mem_cons_self
        cases d with
        | transfer t => exact ⟨hn _ (by simp [Deed.named]), hn _ (by simp [Deed.named])⟩
        | entry e => exact hn _ (by simp [Deed.named])
        | adjustment b delta answer =>
            obtain ⟨account, hb, hrest⟩ := hd
            exact ⟨account, (hsame _ List.mem_cons_self b rfl).trans hb, hrest⟩
      -- Both ledgers are changed alike, so what was assumed holds of the rest.
      refine ⟨hadmits, ih hds ?_ ?_⟩
      · intro e he a ha
        have hold := hsame e (List.mem_cons_of_mem _ he) a ha
        rw [get?_enact, get?_enact]
        cases d with
        | adjustment b delta answer =>
            dsimp only
            rw [hold]
        | _ => exact hold
      · intro e he a ha
        rw [contains_enact hadmits]
        exact hnamed e (List.mem_cons_of_mem _ he) a ha

/-- Deeds add to a balance what each of them adds, and change nothing else of an account. -/
theorem get?_enactAll (h : AdmitsAll nonNegative l ds) (a : Int) :
    (l.enactAll ds).accounts.get? a = (l.accounts.get? a).map fun account =>
      { account with balance := account.balance + (ds.map (Deed.change a)).sum } := by
  induction ds generalizing l with
  | nil =>
      rw [enactAll_nil]
      cases l.accounts.get? a <;> simp
  | cons d ds ih =>
      obtain ⟨hd, hds⟩ := h
      rw [enactAll_cons, ih hds, get?_enact, List.map_cons, List.sum_cons]
      cases d with
      | adjustment b delta answer =>
          obtain ⟨account, hb, rfl, -⟩ := hd
          by_cases hab : a = b
          · subst hab
            simp [hb, Deed.change, add_assoc]
          · simp [hab, Deed.change, Ne.symm hab]
      | _ => simp [Deed.change]

end Ledger

end DoubleEntry
