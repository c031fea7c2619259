import DoubleEntry.Proofs.Books
import DoubleEntry.Proofs.Presence
set_option autoImplicit false

/-! # Repeated transfers

Transfers of one amount from one account to another, as many as there are. As long as nothing else
changes the two accounts for good, each transfer that is carried out finds the balances that the one
before it has left (`Repeats.series`): however many of them wait for the same rows, fail, or are
cancelled after they have taken money from a draft, no update is lost.
-/

namespace DoubleEntry

/-- An account with so much more on it. -/
def Account.plus (a : Account) (delta : Int) : Account := { a with balance := a.balance + delta }

theorem Account.plus_plus (a : Account) (x y : Int) : (a.plus x).plus y = a.plus (x + y) := by
  unfold plus
  rw [add_assoc]

theorem Account.plus_zero (a : Account) : a.plus 0 = a := by
  unfold plus
  rw [add_zero]

/-! ## One transfer -/

namespace Ledger

variable {nonNegative : Bool} {l : Ledger} {n : NewTransfer} {r : Receipt} {source target : Account}

/-- **A transfer that is carried out** answers with its two accounts as it leaves them. -/
theorem AdmitsAll.receipt (h : l.AdmitsAll nonNegative (r.deeds n)) (hne : n.source ≠ n.target)
    (hs : l.accounts.get? n.source = some source) (ht : l.accounts.get? n.target = some target) :
    r.source = source.plus (-n.amount) ∧ r.target = target.plus n.amount := by
  unfold Receipt.deeds NewTransfer.adjustments at h
  by_cases hlt : n.source < n.target
  · rw [if_pos hlt] at h
    obtain ⟨-, -, -, ⟨x, hx, hsource, -⟩, ⟨y, hy, htarget, -⟩, -⟩ := h
    replace hx : l.accounts.get? n.source = some x := hx
    replace hy : (l.accounts.insert n.source r.source).get? n.target = some y := hy
    rw [Table.get?_insert, if_neg hne.symm, ht] at hy
    obtain rfl := Option.some.inj (hs.symm.trans hx)
    obtain rfl := Option.some.inj hy
    exact ⟨hsource, htarget⟩
  · rw [if_neg hlt] at h
    obtain ⟨-, -, -, ⟨y, hy, htarget, -⟩, ⟨x, hx, hsource, -⟩, -⟩ := h
    replace hy : l.accounts.get? n.target = some y := hy
    replace hx : (l.accounts.insert n.target r.target).get? n.source = some x := hx
    rw [Table.get?_insert, if_neg hne, hs] at hx
    obtain rfl := Option.some.inj (ht.symm.trans hy)
    obtain rfl := Option.some.inj hx
    exact ⟨hsource, htarget⟩

/-- **A transfer that is carried out** takes from the one account and gives to the other. -/
theorem AdmitsAll.transferred (h : l.AdmitsAll nonNegative (r.deeds n))
    (hne : n.source ≠ n.target) (hs : l.accounts.get? n.source = some source)
    (ht : l.accounts.get? n.target = some target) :
    (l.enactAll (r.deeds n)).accounts.get? n.source = some (source.plus (-n.amount)) ∧
      (l.enactAll (r.deeds n)).accounts.get? n.target = some (target.plus n.amount) := by
  constructor
  · rw [get?_enactAll h, change_deeds, hs, if_neg hne.symm, if_pos rfl, zero_add]
    rfl
  · rw [get?_enactAll h, change_deeds, ht, if_neg hne, if_pos rfl, add_zero]
    rfl

end Ledger

/-! ## One transfer after the other -/

section Repeats

variable {σ ε : Type} (after : σ → ε → σ) (bank : σ → Bank) (completes : σ → ε → Receipt → Prop)
  (n : NewTransfer)

/-- **Repeated transfers.** Of what happens one after the other, each step either completes one of
the transfers, with the next of the receipts, or leaves both accounts as they are committed. No
receipt is missing, for a step that completes a transfer changes both accounts. -/
inductive Repeats : σ → List ε → List Receipt → Prop
  | nil (s : σ) : Repeats s [] []
  | completed {s : σ} {e : ε} {r : Receipt} {es : List ε} {rs : List Receipt}
      (completes : completes s e r) (rest : Repeats (after s e) es rs) :
      Repeats s (e :: es) (r :: rs)
  | undisturbed {s : σ} {e : ε} {es : List ε} {rs : List Receipt}
      (source : (bank (after s e)).getAccount n.source = (bank s).getAccount n.source)
      (target : (bank (after s e)).getAccount n.target = (bank s).getAccount n.target)
      (rest : Repeats (after s e) es rs) : Repeats s (e :: es) rs

end Repeats

/-- **No update is lost.** The first receipt has the two accounts one amount further, the next one
two amounts, and so on, and the bank has them as the last receipt says. So no two receipts have the
same balances. -/
structure Series (n : NewTransfer) (source target : Account) (rs : List Receipt) (b : Bank) :
    Prop where
  sources : rs.map Receipt.source =
    (List.range rs.length).map fun k => source.plus ((k + 1 : Nat) * -n.amount)
  targets : rs.map Receipt.target =
    (List.range rs.length).map fun k => target.plus ((k + 1 : Nat) * n.amount)
  sources_nodup : (rs.map fun r => r.source.balance).Nodup
  targets_nodup : (rs.map fun r => r.target.balance).Nodup
  source : b.getAccount n.source = some (source.plus (rs.length * -n.amount))
  target : b.getAccount n.target = some (target.plus (rs.length * n.amount))

/-- Balances that go up or down by the same amount each time are all different. -/
theorem nodup_plus {a : Account} {amount : Int} (hne : amount ≠ 0) (m : Nat) :
    (((List.range m).map fun k => a.plus ((k + 1 : Nat) * amount)).map Account.balance).Nodup := by
  rw [List.map_map]
  refine List.nodup_range.map fun i j e => ?_
  have heq : ((i + 1 : Nat) : Int) * amount = (j + 1 : Nat) * amount := Int.add_left_cancel e
  have hij := Int.eq_of_mul_eq_mul_right hne heq
  omega

namespace Series

variable {n : NewTransfer} {source target : Account} {rs : List Receipt} {r : Receipt} {b : Bank}

/-- The balances are different because the accounts are what they are said to be. -/
theorem of_rows (hne : n.amount ≠ 0)
    (hsources : rs.map Receipt.source =
      (List.range rs.length).map fun k => source.plus ((k + 1 : Nat) * -n.amount))
    (htargets : rs.map Receipt.target =
      (List.range rs.length).map fun k => target.plus ((k + 1 : Nat) * n.amount))
    (hsource : b.getAccount n.source = some (source.plus (rs.length * -n.amount)))
    (htarget : b.getAccount n.target = some (target.plus (rs.length * n.amount))) :
    Series n source target rs b where
  sources := hsources
  targets := htargets
  sources_nodup := by
    have hnodup := nodup_plus (a := source) (neg_ne_zero.2 hne) rs.length
    rwa [← hsources, List.map_map] at hnodup
  targets_nodup := by
    have hnodup := nodup_plus (a := target) hne rs.length
    rwa [← htargets, List.map_map] at hnodup
  source := hsource
  target := htarget

theorem nil (hne : n.amount ≠ 0) (hs : b.getAccount n.source = some source)
    (ht : b.getAccount n.target = some target) : Series n source target [] b := by
  refine .of_rows hne rfl rfl ?_ ?_
  · rw [hs, List.length_nil, Nat.cast_zero, zero_mul, Account.plus_zero]
  · rw [ht, List.length_nil, Nat.cast_zero, zero_mul, Account.plus_zero]

/-- One more transfer, before all the others. -/
theorem cons (hne : n.amount ≠ 0) (hsource : r.source = source.plus (-n.amount))
    (htarget : r.target = target.plus n.amount)
    (h : Series n (source.plus (-n.amount)) (target.plus n.amount) rs b) :
    Series n source target (r :: rs) b := by
  have next : ∀ (a : Account) (amount : Int) (k : Nat),
      (a.plus amount).plus (k * amount) = a.plus ((k + 1 : Nat) * amount) := by
    intro a amount k
    rw [Account.plus_plus]
    congr 1
    push_cast
    ring
  have rows : ∀ (a : Account) (amount : Int),
      (List.range (rs.length + 1)).map (fun k => a.plus ((k + 1 : Nat) * amount)) =
        a.plus amount :: (List.range rs.length).map fun k =>
          (a.plus amount).plus ((k + 1 : Nat) * amount) := by
    intro a amount
    rw [List.range_succ_eq_map, List.map_cons, List.map_map]
    congr 1
    · simp
    · exact List.map_congr_left fun k _ => (next a amount (k + 1)).symm
  refine .of_rows hne ?_ ?_ ?_ ?_
  · rw [List.map_cons, List.length_cons, rows, hsource, h.sources]
  · rw [List.map_cons, List.length_cons, rows, htarget, h.targets]
  · rw [h.source, next, List.length_cons]
  · rw [h.target, next, List.length_cons]

end Series

section Repeats

variable {σ ε : Type} {after : σ → ε → σ} {bank : σ → Bank} {completes : σ → ε → Receipt → Prop}
  {n : NewTransfer} {P : σ → Prop}

/-- **Repeated transfers make a series,** if each step that completes one commits what it did. -/
theorem Repeats.series (hafter : ∀ s e, P s → P (after s e))
    (hcommits : ∀ s e r, P s → completes s e r → ∃ nonNegative,
      (bank s).ledger.AdmitsAll nonNegative (r.deeds n) ∧
        (bank (after s e)).ledger = (bank s).ledger.enactAll (r.deeds n))
    (hne : n.source ≠ n.target) (hamount : n.amount ≠ 0) {s : σ} {es : List ε}
    {rs : List Receipt} (h : Repeats after bank completes n s es rs) (hs : P s)
    {source target : Account} (hsource : (bank s).getAccount n.source = some source)
    (htarget : (bank s).getAccount n.target = some target) :
    Series n source target rs (bank (es.foldl after s)) := by
  induction h generalizing source target with
  | nil s => exact .nil hamount hsource htarget
  | @completed s e r es rs hc rest ih =>
      obtain ⟨nonNegative, hadmits, hledger⟩ := hcommits s e r hs hc
      rw [Bank.getAccount_eq] at hsource htarget
      obtain ⟨hrsource, hrtarget⟩ := hadmits.receipt hne hsource htarget
      obtain ⟨hsource', htarget'⟩ := hadmits.transferred hne hsource htarget
      rw [← hledger, ← Bank.getAccount_eq] at hsource' htarget'
      exact .cons hamount hrsource hrtarget (ih (hafter s e hs) hsource' htarget')
  | @undisturbed s e es rs hsame hsame' rest ih =>
      exact ih (hafter s e hs) (hsame.trans hsource) (hsame'.trans htarget)

end Repeats

/-! ## Call by call -/

namespace Hall

/-- A transfer that is carried out call by call commits what it did. -/
def Completes (nonNegative : Bool) (n : NewTransfer) (h : Hall) (m : Move) (r : Receipt) : Prop :=
  ∃ o xs, m = .call o .commit ∧ Underway nonNegative o n h xs (.inl (.committing r))

theorem Completes.commits {nonNegative : Bool} {n : NewTransfer} {h : Hall} {m : Move}
    {r : Receipt} (hm : Completes nonNegative n h m r) (representable : n.amount ≠ Amount.least) :
    h.bank.ledger.AdmitsAll h.bank.nonNegative (r.deeds n) ∧
      (h.after m).bank.ledger = h.bank.ledger.enactAll (r.deeds n) := by
  obtain ⟨o, xs, rfl, hunderway⟩ := hm
  have hcourse := (hunderway.stands representable).onCourse _ rfl
  have hcall : h.MayCall o .commit := hcourse.mayCall
  have hperforms := (hcourse.carries.reflects rfl).performs hcourse.sound.bank hcourse.sound.fresh
    (hcall.1.2 (by simp))
  rw [after_call hcall]
  exact ⟨hperforms.allowed.1.1, hperforms.ledger⟩

end Hall

/-! ## At a desk -/

namespace Desk

/-- The transfer that an event starts or asks to go on. -/
def transfer? (d : Desk) : Event → Option NewTransfer
  | .command (.transfer t _) => some t
  | .poll number =>
      match d.pending.lookup number with
      | some (.transfer run) => some run.request
      | _ => none
  | _ => none

/-- A transfer, whenever it was started, is carried out at last. -/
def Completes (n : NewTransfer) (d : Desk) (e : Event) (r : Receipt) : Prop :=
  d.transfer? e = some n ∧ ∃ made, d.reply? e = some (.transfer (.completed r) made)

variable {spent : Spent} {d : Desk} {k : Nat} {run : Run} {n : NewTransfer} {r : Receipt}
  {made : List Call}

theorem Sound.commits_attempt (hd : d.Sound spent)
    (hcan : d.bank.CanProceed spent d.awaits k (.transfer run))
    (hreply : (d.attempt k (.transfer run)).1 = some (.transfer (.completed r) made)) :
    d.bank.ledger.AdmitsAll d.bank.nonNegative (r.deeds run.request) ∧
      (d.attempt k (.transfer run)).2.bank.ledger =
        d.bank.ledger.enactAll (r.deeds run.request) := by
  have hproceeds := hcan.proceed hd.bank hd.fresh
  rw [attempt_reply] at hreply
  rw [attempt_bank]
  generalize (Request.transfer run).proceed k d.bank = x at hproceeds hreply ⊢
  obtain ⟨reply, r', b⟩ := x
  obtain rfl : reply = some _ := hreply
  exact ⟨hproceeds.performs.allowed.1.1, hproceeds.performs.ledger⟩

theorem Sound.commits (hd : d.Sound spent) {e : Event} (he : Completes n d e r) :
    d.bank.ledger.AdmitsAll d.bank.nonNegative (r.deeds n) ∧
      (d.after e).bank.ledger = d.bank.ledger.enactAll (r.deeds n) := by
  obtain ⟨hn, made, hreply⟩ := he
  cases e with
  | command c =>
      cases c with
      | transfer t faults =>
          obtain rfl := Option.some.inj hn
          have hattempt := d.reply?_call (.transfer { request := t, faults })
          obtain ⟨hadmits, hledger⟩ :=
            hd.commits_attempt (hd.canStart t faults) (hattempt.symm.trans hreply)
          refine ⟨hadmits, ?_⟩
          show (d.call _).2.bank.ledger = _
          rw [call_desk]
          exact hledger
      | _ => cases hn
  | poll number =>
      rcases d.poll_cases number with ⟨-, heq⟩ | ⟨request, hmem, hlookup, heq⟩
      · rw [reply?, heq] at hreply
        cases hreply
      · unfold transfer? at hn
        dsimp only at hn
        rw [hlookup] at hn
        rw [reply?, heq] at hreply
        rw [after, heq]
        cases request with
        | transfer run =>
            obtain rfl := Option.some.inj hn
            exact hd.commits_attempt (hd.canProceed hmem) hreply
        | _ => cases hn
  | _ => cases hn

end Desk

/-! ## The main result -/

/-- **No update is lost among repeated transfers,** from any time on, of however many of them. If
nothing else commits a change of the two accounts, the receipts of those that are carried out have
the balances one amount further each time, and the last one has what is committed in the end: call
by call, and at every desk. -/
theorem NewTransfer.repeated (nonNegative : Bool) {n : NewTransfer} {source target : Account}
    (hne : n.source ≠ n.target) (positive : 0 < n.amount) :
    (∀ {h : Hall} {ms rs}, h.bank.getAccount n.source = some source →
      h.bank.getAccount n.target = some target →
      Repeats Hall.after Hall.bank (Hall.Completes nonNegative n) n h ms rs →
      Series n source target rs (h.afterAll ms).bank) ∧
    ∀ {d es rs}, d.Reachable nonNegative → d.bank.getAccount n.source = some source →
      d.bank.getAccount n.target = some target →
      Repeats Desk.after Desk.bank (Desk.Completes n) n d es rs →
      Series n source target rs (d.afterAll es).bank := by
  have representable : n.amount ≠ Amount.least := fun e => absurd positive (by rw [e]; decide)
  constructor
  · intro h ms rs hs ht hr
    exact hr.series (P := fun _ => True) (fun h m _ => trivial)
      (fun h m r _ hm => ⟨_, hm.commits representable⟩) hne positive.ne' trivial hs ht
  · intro d es rs hd hs ht hr
    exact hr.series (P := Desk.Reachable nonNegative) (fun d e hd => hd.after e)
      (fun d e r hd he => ⟨_, hd.sound.commits he⟩) hne positive.ne' hd hs ht

/-- Of three transfers the first has debited its source, in its draft, and waits for the target,
which somebody else has locked; the others wait for the source. The first is cancelled, what the
other unit of work did is rolled back, and the two transfers that are left are carried out. -/
theorem NewTransfer.repeated_contended :
    let d := (Desk.opening true).afterAll [.command (.createAccount ⟨"a", 100, .usd⟩),
      .command (.createAccount ⟨"b", 50, .usd⟩), .command (.begin "u"),
      .command (.onUnit "u" (.addBalance 2 7))]
    let n : NewTransfer := ⟨1, 2, 30⟩
    let es : List Event := [.command (.transfer n []), .command (.transfer n []),
      .command (.transfer n []), .cancel 4, .poll 5, .command (.onUnit "u" .rollback), .poll 5,
      .poll 6]
    let source : Account := ⟨1, "a", 100, "USD", .epoch⟩
    let target : Account := ⟨2, "b", 50, "USD", .epoch⟩
    let rs : List Receipt := [
      ⟨⟨2, 1, 2, 30, .epoch⟩, source.plus (-30), target.plus 30, ⟨3, 1, -30, .epoch⟩,
        ⟨4, 2, 30, .epoch⟩⟩,
      ⟨⟨3, 1, 2, 30, .epoch⟩, source.plus (-60), target.plus 60, ⟨5, 1, -30, .epoch⟩,
        ⟨6, 2, 30, .epoch⟩⟩]
    ((n.source ≠ n.target ∧ 0 < n.amount) ∧ d.Reachable true ∧
      d.bank.getAccount n.source = some source ∧ d.bank.getAccount n.target = some target ∧
      Repeats Desk.after Desk.bank (Desk.Completes n) n d es rs) ∧
    Series n source target rs (d.afterAll es).bank := by
  intro d n es source target rs
  have hd : d.Reachable true := Desk.Reachable.opening.afterAll _
  have hne : n.source ≠ n.target := by decide
  have hpos : 0 < n.amount := by decide
  have hs : d.bank.getAccount n.source = some source := by decide +kernel
  have ht : d.bank.getAccount n.target = some target := by decide +kernel
  have hr : Repeats Desk.after Desk.bank (Desk.Completes n) n d es rs := by
    refine .undisturbed ?_ ?_ <| .undisturbed ?_ ?_ <| .undisturbed ?_ ?_ <|
      .undisturbed ?_ ?_ <| .undisturbed ?_ ?_ <| .undisturbed ?_ ?_ <|
      .completed ⟨?_, n.plan, ?_⟩ <| .completed ⟨?_, n.plan, ?_⟩ <| .nil _
    all_goals decide +kernel
  exact ⟨⟨⟨hne, hpos⟩, hd, hs, ht, hr⟩, (repeated true hne hpos).2 hd hs ht hr⟩

end DoubleEntry
