import DoubleEntry.Proofs.Hall
set_option autoImplicit false

/-! # What a move brings about

A move takes effect on the ledger when it commits a unit of work or carries out a statement about an
account, and then it brings about what `Hall.effects` says. All other moves leave alone what is
committed, and no move touches what somebody else than its actor has in flight.
-/

namespace DoubleEntry

open Function (update update_self update_of_ne)

/-- Whose move it is, unless it is nobody's in particular. -/
def Move.actor? : Move → Option Owner
  | .call o _ | .leave o | .drop o => some o
  | .updateAccount number _ _ | .deleteAccount number _ => some (.call number)
  | .createAccount _ | .tick _ => none

/-- What the reply to a call says about the ledger: nothing as long as the call waits. -/
def Request.effects (r : Request) (number : Nat) (b : Bank) : List Effect :=
  (r.proceed number b).1.elim [] (Effect.of r.command)

namespace Bank

/-- **What a move brings about:** the given effects, which the ledger allows, and nothing that
anybody but the actor notices. -/
structure Brings (actor? : Option Owner) (es : List Effect) (b b' : Bank) : Prop where
  keeps : ∀ {p}, actor? ≠ some p → b.Keeps p b'
  ledger : b'.ledger = b.ledger.applyAll es
  allowed : b.ledger.AllowsAll b.nonNegative es
  nonNegative : b'.nonNegative = b.nonNegative

variable {spent : Spent} {b b' b'' : Bank} {o : Owner} {awaits awaits' : Owner → Option Int}
  {actor? : Option Owner} {es : List Effect} {number : Nat} {r : Request}

namespace Brings

theorem refl (actor? : Option Owner) (b : Bank) : Brings actor? [] b b :=
  ⟨fun _ => .refl _ _, rfl, trivial, rfl⟩

theorem of_performs (h : b.Performs spent o es b') : Brings (some o) es b b' :=
  ⟨fun hp => h.keeps fun e => hp (congrArg some e.symm), h.ledger, h.allowed, h.nonNegative⟩

theorem of_within (h : b.Within o b') (hb : b.Sound awaits) (hb' : b'.Sound awaits') :
    Brings (some o) [] b b' :=
  ⟨fun hp => h.keeps hb hb' fun e => hp (congrArg some e.symm), h.ledger, trivial, h.nonNegative⟩

end Brings

/-- A statement about an account that waits, or that ends with a reply. -/
theorem Proceeded.brings {x : Option Reply × Request × Bank}
    (h : b.Proceeded spent awaits number r x) (hb : b.Sound awaits) :
    Brings (some (r.owner number)) (x.1.elim [] (Effect.of r.command)) b x.2.2 := by
  obtain ⟨_ | reply, r', b'⟩ := x
  · obtain ⟨a, -, hs⟩ := h.sound
    exact .of_within h.within hb hs
  · exact .of_performs h.performs

end Bank

namespace Hall

/-- What a move brings about. -/
def effects (h : Hall) : Move → List Effect
  | .call o .commit => if h.MayCall o .commit then [.committed (h.deeds o)] else []
  | .createAccount n => Effect.ofOpening n (h.bank.createAccount n).1
  | .updateAccount number account balance =>
      if h.MayState number account then
        (Request.updateAccount account balance).effects number h.bank
      else []
  | .deleteAccount number account =>
      if h.MayState number account then (Request.deleteAccount account).effects number h.bank
      else []
  | _ => []

/-- What a move does in a unit of work: the operation that is carried out, if it succeeds. -/
def done (h : Hall) : Move → List Deed
  | .call o c =>
      if h.MayCall o c then
        (((Bank.store o).perform c h.bank).1.toList.map (Exchange.mk c)).flatMap Exchange.deeds
      else []
  | _ => []

/-- What there is to say about each of some moves, one after the other. -/
def trace {α : Type} (f : Hall → Move → List α) : Hall → List Move → List α
  | _, [] => []
  | h, m :: ms => f h m ++ trace f (h.after m) ms

theorem trace_append {α : Type} (f : Hall → Move → List α) (h : Hall) (ms ms' : List Move) :
    trace f h (ms ++ ms') = trace f h ms ++ trace f (h.afterAll ms) ms' := by
  induction ms generalizing h with
  | nil => rfl
  | cons m ms ih =>
      show f h m ++ trace f (h.after m) (ms ++ ms') = f h m ++ trace f (h.after m) ms ++ _
      rw [ih, List.append_assoc]
      rfl

variable {h : Hall} {o p : Owner} {c : Call} {m : Move}

namespace Sound

/-- A call brings about nothing, unless it is the commit of a unit of work. -/
theorem brings_call (h₀ : h.Sound) (hc : h.MayCall o c) :
    Bank.Brings (some o) (h.effects (.call o c)) h.bank (h.call o c).bank := by
  have hb := h₀.bank
  have hs := (h₀.call hc).bank
  -- In a unit of work that is open, another call than the commit stays within it.
  have within : ∀ {b' : Bank}, h.bank.Within o b' → b' = (h.call o c).bank →
      Bank.Brings (some o) [] h.bank (h.call o c).bank := by
    rintro _ hw rfl
    exact .of_within hw hb hs
  cases c with
  | begin => exact within (Bank.within_begin _ _) rfl
  | createTransfer n => exact within (hb.createTransfer (hc.1.2 (by simp)) n).2.1 rfl
  | createEntry n => exact within (hb.createEntry (hc.1.2 (by simp)) n).2.1 rfl
  | addBalance account delta => exact within (hb.addBalance (hc.1.2 (by simp)) hc.2 delta).1 rfl
  | commit =>
      have ho : h.bank.IsOpen o := hc.1.2 (by simp)
      rw [show h.effects (.call o .commit) = [.committed (h.deeds o)] from if_pos hc]
      exact .of_performs ((h₀.reflects ho).performs hb h₀.fresh ho)
  | rollback => exact within hb.within_rollback rfl

theorem within_leave (h₀ : h.Sound) (o : Owner) : h.bank.Within o (h.leave o).bank := by
  unfold Hall.leave
  cases ha : h.awaits o with
  | none => exact .refl _ _
  | some a => exact (h₀.bank.abandon ha).1

/-- **What a move brings about** is what it says. -/
theorem brings (h₀ : h.Sound) (m : Move) :
    Bank.Brings m.actor? (h.effects m) h.bank (h.after m).bank := by
  have hs := (h₀.after m).bank
  cases m with
  | call o c =>
      by_cases hc : h.MayCall o c
      · rw [after_call hc]
        exact h₀.brings_call hc
      · rw [show h.after (.call o c) = h from if_neg hc]
        have hnone : h.effects (.call o c) = [] := by
          cases c with
          | commit => exact if_neg hc
          | _ => rfl
        rw [hnone]
        exact .refl _ _
  | leave o => exact .of_within (h₀.within_leave o) h₀.bank hs
  | drop o =>
      have hw := (h₀.within_leave o).trans (h₀.leave o).bank.within_rollback
      exact .of_within hw h₀.bank hs
  | createAccount n =>
      obtain ⟨-, hk, hledger, hallowed⟩ := h₀.bank.createAccount h₀.fresh.nextAccount n
      exact ⟨fun _ => hk _, hledger, hallowed, (hk (.call 0)).nonNegative⟩
  | updateAccount number account balance =>
      by_cases hm : h.MayState number account
      · rw [after_updateAccount hm,
          show h.effects (.updateAccount number account balance) = _ from if_pos hm]
        exact (Bank.proceed_updateAccount hm h₀.bank h₀.fresh).brings h₀.bank
      · rw [show h.after (.updateAccount number account balance) = h from if_neg hm,
          show h.effects (.updateAccount number account balance) = _ from if_neg hm]
        exact .refl _ _
  | deleteAccount number account =>
      by_cases hm : h.MayState number account
      · rw [after_deleteAccount hm,
          show h.effects (.deleteAccount number account) = _ from if_pos hm]
        exact (Bank.proceed_deleteAccount hm h₀.bank h₀.fresh).brings h₀.bank
      · rw [show h.after (.deleteAccount number account) = h from if_neg hm,
          show h.effects (.deleteAccount number account) = _ from if_neg hm]
        exact .refl _ _
  | tick now => exact ⟨fun _ => .of_work? rfl rfl fun _ _ => rfl, rfl, trivial, rfl⟩

/-- **What moves bring about** is what they say, one after the other. -/
theorem brings_all (h₀ : h.Sound) (ms : List Move) :
    (h.afterAll ms).bank.ledger = h.bank.ledger.applyAll (h.trace effects ms) ∧
      h.bank.ledger.AllowsAll h.bank.nonNegative (h.trace effects ms) ∧
      (h.afterAll ms).bank.nonNegative = h.bank.nonNegative := by
  induction ms generalizing h with
  | nil => exact ⟨rfl, trivial, rfl⟩
  | cons m ms ih =>
      have hm := h₀.brings m
      obtain ⟨hledger, hallowed, hnn⟩ := ih (h₀.after m)
      rw [hm.ledger, ← Ledger.applyAll_append] at hledger
      rw [hm.ledger, hm.nonNegative] at hallowed
      exact ⟨hledger, Ledger.allowsAll_append.2 ⟨hm.allowed, hallowed⟩, hnn.trans hm.nonNegative⟩

end Sound

/-- Nobody else begins or ceases to wait. -/
theorem awaits_after (hp : m.actor? ≠ some p) : (h.after m).awaits p = h.awaits p := by
  have hne : ∀ {o}, m.actor? = some o → p ≠ o := fun ho e => hp (ho.trans (congrArg some e.symm))
  cases m with
  | call o c =>
      unfold after
      dsimp only
      split
      · exact update_of_ne (hne rfl) _ _
      · rfl
  | leave o =>
      show (h.leave o).awaits p = _
      rw [awaits_leave, update_of_ne (hne rfl)]
  | drop o =>
      show (h.leave o).awaits p = _
      rw [awaits_leave, update_of_ne (hne rfl)]
  | createAccount n => rfl
  | updateAccount number account balance =>
      unfold after
      dsimp only
      split
      · exact update_of_ne (hne rfl) _ _
      · rfl
  | deleteAccount number account =>
      unfold after
      dsimp only
      split
      · exact update_of_ne (hne rfl) _ _
      · rfl
  | tick now => rfl

end Hall

end DoubleEntry
