import DoubleEntry.Proofs.Interleaving
import DoubleEntry.Proofs.Moves
set_option autoImplicit false

/-! # No balance is ever negative

At a bank that does not allow negative balances none is to be seen at any time: neither among the
committed balances, nor in a draft of an open unit of work, nor among the balances that a rollback
would give back, nor in any answer.
-/

namespace DoubleEntry

/-! ## What takes effect leaves no balance negative -/

namespace Ledger

/-- No committed balance is negative. -/
def Solvent (l : Ledger) : Prop := ∀ a x, l.accounts.get? a = some x → 0 ≤ x.balance

variable {l : Ledger} {ds : List Deed} {es : List Effect}

/-- A unit of work whose deeds are admitted leaves no balance negative. -/
theorem Solvent.enactAll (h : l.Solvent) (hds : l.AdmitsAll true ds) : (l.enactAll ds).Solvent :=
  Balances.enactAll (fun _ _ hbalance => hbalance rfl) h hds

theorem Solvent.applyAll (h : l.Solvent) (hes : l.AllowsAll true es) : (l.applyAll es).Solvent :=
  Balances.applyAll (fun _ _ hbalance => hbalance rfl) h hes fun _ _ _ _ hbalance => hbalance rfl

/-- An adjustment that was admitted answered with a balance that is not negative. -/
theorem AdmitsAll.answer_nonneg (hds : l.AdmitsAll true ds) {a delta : Int} {x : Account}
    (hx : .adjustment a delta x ∈ ds) : 0 ≤ x.balance := by
  induction ds generalizing l with
  | nil => cases hx
  | cons d ds ih =>
      rcases List.mem_cons.1 hx with rfl | hx
      · obtain ⟨-, -, -, -, hanswer⟩ := hds.1
        exact hanswer rfl
      · exact ih hds.2 hx

end Ledger

/-! ## Banks -/

namespace Bank

/-- **No balance of a bank is negative,** whether it is committed, drafted, or kept to be given
back. -/
structure Solvent (b : Bank) : Prop where
  committed : ∀ {a r}, b.accounts.get? a = some r → 0 ≤ r.committed.balance
  working : ∀ {a r}, b.accounts.get? a = some r → 0 ≤ r.working.balance
  prior : ∀ {o} {hold : Hold}, hold ∈ (b.work o).held → 0 ≤ hold.prior

end Bank

/-- A sound hall is solvent if what is committed is. -/
theorem Hall.Sound.solvent {h : Hall} (h₀ : h.Sound) (hn : h.bank.nonNegative = true)
    (hl : h.bank.ledger.Solvent) : h.bank.Solvent := by
  have committed : ∀ {a r}, h.bank.accounts.get? a = some r → 0 ≤ r.committed.balance := by
    intro a r hr
    refine hl a r.committed ?_
    rw [Bank.get?_ledger, hr, Option.map_some]
  refine ⟨committed, fun {a r} hr => ?_, fun {o hold} hmem => ?_⟩
  · by_cases hheld : ∃ o, a ∈ h.bank.heldBy o
    · -- The draft is what the deeds of its unit of work make of the committed ledger.
      obtain ⟨o, ha⟩ := hheld
      have hreflects := h₀.reflects (Bank.isOpen_of_mem_heldBy ha)
      have hadmitted := hreflects.admitted
      rw [hn] at hadmitted
      exact hl.enactAll hadmitted a _ (hreflects.working ha hr)
    · rw [h₀.bank.settled.clean hr fun o ha => hheld ⟨o, ha⟩]
      exact committed hr
  · obtain ⟨r, hr, hprior⟩ := h₀.bank.settled.prior hmem
    rw [← hprior]
    exact committed hr

/-! ## Answers -/

/-- The account rows in a value. -/
def Value.rows : Value → List Account
  | .account a => [a]
  | .accounts as => as
  | _ => []

/-- The account rows in a reply. -/
def Reply.rows : Reply → List Account
  | .done v => v.rows
  | .transfer (.completed receipt) _ => [receipt.source, receipt.target]
  | _ => []

/-- No row in a reply has a negative balance. -/
def Reply.Solvent (r : Reply) : Prop := ∀ x ∈ r.rows, 0 ≤ x.balance

theorem Value.rows_optionalAccount (a : Option Account) :
    (Value.optionalAccount a).rows = a.toList := by
  cases a <;> rfl

theorem Value.rows_optionalEntry (e : Option Entry) : (Value.optionalEntry e).rows = [] := by
  cases e <;> rfl

theorem Value.rows_optionalTransfer (t : Option Transfer) :
    (Value.optionalTransfer t).rows = [] := by
  cases t <;> rfl

theorem Reply.solvent_of_rows_nil {r : Reply} (h : r.rows = []) : r.Solvent := by
  intro x hx
  rw [h] at hx
  cases hx

/-- The value that a call answers with. -/
def Call.value : (c : Call) → c.Answer → Value
  | .createTransfer _, t => .transfer t
  | .createEntry _, e => .entry e
  | .addBalance _ _, a => .account a
  | .begin, _ | .commit, _ | .rollback, _ => .nothing

namespace Bank

variable {spent : Spent} {b : Bank} {awaits : Owner → Option Int} {o : Owner} {a delta : Int}
  {number : Nat} {r : Request} {reply : Reply}

theorem Solvent.solvent_answer (h : b.Solvent) (q : Query) : (Reply.done (b.answer q)).Solvent := by
  have all : ∀ x ∈ b.allAccounts, 0 ≤ x.balance := by
    intro x hx
    obtain ⟨r, hr, rfl⟩ := List.mem_map.1 hx
    obtain ⟨k, hk⟩ := Table.mem_toList_iff.1 hr
    exact h.committed hk
  cases q with
  | account id =>
      intro x hx
      replace hx : x ∈ (Value.optionalAccount (b.getAccount id)).rows := hx
      rw [Value.rows_optionalAccount, Option.mem_toList] at hx
      obtain ⟨r, hr, rfl⟩ := Option.map_eq_some_iff.1 hx
      exact h.committed hr
  | accounts page => exact fun x hx => all x (List.mem_of_mem_drop (List.mem_of_mem_take hx))
  | entry id => exact Reply.solvent_of_rows_nil (Value.rows_optionalEntry _)
  | transfer id => exact Reply.solvent_of_rows_nil (Value.rows_optionalTransfer _)
  | _ => exact Reply.solvent_of_rows_nil rfl

theorem solvent_createAccount (hn : b.nonNegative = true) (n : NewAccount) :
    (Reply.of .account (b.createAccount n).1).Solvent := by
  rcases b.createAccount_cases n with ⟨-, -, heq⟩ | ⟨hbalance, account, rfl, heq⟩
  · rw [heq]
    exact Reply.solvent_of_rows_nil rfl
  · rw [heq]
    intro x hx
    rw [List.mem_singleton.1 hx]
    exact hbalance hn

theorem Sound.solvent_addBalance (h : b.Sound awaits) (hn : b.nonNegative = true)
    (ho : b.IsOpen o) (ha : awaits o = none ∨ awaits o = some a)
    {answer : Except LedgerError Account} (hanswer : (b.addBalance o a delta).1 = some answer) :
    (Reply.of .account answer).Solvent := by
  rcases h.addBalance_cases ho ha delta with ⟨locks, heq, -⟩ | ⟨locks, heq, -⟩ |
    ⟨c, heq, hw, hs, -, hheld, -⟩
  · rw [heq] at hanswer
    cases hanswer
  · rw [heq] at hanswer
    obtain rfl := Option.some.inj hanswer
    exact Reply.solvent_of_rows_nil rfl
  · rw [heq] at hanswer
    obtain rfl := Option.some.inj hanswer
    obtain ⟨g, hg, rfl⟩ := List.mem_map.1 hheld
    obtain ⟨row, hrow, -⟩ := hs.settled.prior hg
    rcases adjust_cases hrow delta with ⟨-, heq⟩ | ⟨-, -, heq⟩ | ⟨-, hbalance, heq⟩
    · rw [heq]
      exact Reply.solvent_of_rows_nil rfl
    · rw [heq]
      exact Reply.solvent_of_rows_nil rfl
    · rw [heq]
      intro x hx
      rw [List.mem_singleton.1 hx]
      exact hbalance (hw.nonNegative.trans hn)

theorem Sound.solvent_updateAccount (h : b.Sound awaits) (hn : b.nonNegative = true)
    (hclosed : ¬ b.IsOpen o) (ha : awaits o = none ∨ awaits o = some a) (balance : Int)
    {answer : Except LedgerError (Option Account)}
    (hanswer : (b.updateAccount o a balance).1 = some answer) :
    (Reply.of .optionalAccount answer).Solvent := by
  rcases h.updateAccount_cases (heldBy_of_not_isOpen hclosed) ha balance with
    ⟨locks, ⟨heq, -⟩ | ⟨other, heq, hother, -⟩ | ⟨row, -, -, hbalance, heq, -⟩⟩
  · rw [heq] at hanswer
    cases hanswer
  · rw [heq] at hanswer
    obtain rfl := Option.some.inj hanswer
    rcases hother with ⟨rfl, -⟩ | ⟨⟨e, rfl⟩, -⟩ <;> exact Reply.solvent_of_rows_nil rfl
  · rw [heq] at hanswer
    obtain rfl := Option.some.inj hanswer
    intro x hx
    rw [List.mem_singleton.1 hx]
    exact hbalance hn

/-- The receipt of a transfer has the balances that its two adjustments answered. -/
theorem solvent_receipt {l : Ledger} {n : NewTransfer} {receipt : Receipt}
    (h : l.AdmitsAll true (receipt.deeds n)) (made : List Call) :
    (Reply.transfer (.completed receipt) made).Solvent := by
  have hfirst : 0 ≤ (receipt.account n.adjustments.1.side).balance :=
    h.answer_nonneg (.tail _ (.tail _ (.tail _ (.head _))))
  have hsecond : 0 ≤ (receipt.account n.adjustments.2.side).balance :=
    h.answer_nonneg (.tail _ (.tail _ (.tail _ (.tail _ (.head _)))))
  have hboth : 0 ≤ receipt.source.balance ∧ 0 ≤ receipt.target.balance := by
    unfold NewTransfer.adjustments at hfirst hsecond
    split at hfirst
    · rw [if_pos ‹_›] at hsecond
      exact ⟨hfirst, hsecond⟩
    · rw [if_neg ‹_›] at hsecond
      exact ⟨hsecond, hfirst⟩
  intro x hx
  rcases List.mem_cons.1 hx with rfl | hx
  · exact hboth.1
  · rw [List.mem_singleton.1 hx]
    exact hboth.2

/-- **No call replies with a negative balance.** -/
theorem CanProceed.solvent (h : b.CanProceed spent awaits number r) (hb : b.Sound awaits)
    (hn : b.nonNegative = true) (hreply : (r.proceed number b).1 = some reply) :
    reply.Solvent := by
  cases r with
  | addBalance unit account delta =>
      obtain ⟨answer, hanswer, rfl⟩ := Option.map_eq_some_iff.1 hreply
      exact hb.solvent_addBalance hn h.1 h.2.2 hanswer
  | updateAccount account balance =>
      obtain ⟨answer, hanswer, rfl⟩ := Option.map_eq_some_iff.1 hreply
      exact hb.solvent_updateAccount hn h.1 h.2 balance hanswer
  | deleteAccount account =>
      obtain ⟨answer, -, rfl⟩ := Option.map_eq_some_iff.1 hreply
      cases answer <;> exact Reply.solvent_of_rows_nil rfl
  | transfer run =>
      have hproceeds := proceed_transfer h hb
      unfold Request.proceed at hproceeds hreply
      dsimp only at hproceeds hreply
      generalize (store (.call number)).run run b = x at hproceeds hreply
      obtain ⟨run' | ⟨outcome, made⟩, b'⟩ := x
      · cases hreply
      · obtain rfl := Option.some.inj hreply
        cases outcome with
        | completed receipt =>
            have hallowed := hproceeds.performs.allowed
            rw [hn] at hallowed
            exact solvent_receipt hallowed.1.1 made
        | _ => exact Reply.solvent_of_rows_nil rfl

end Bank

/-! ## Calls, one by one -/

namespace Hall

/-- The reply to a move, if it gets one. -/
def reply? (h : Hall) : Move → Option Reply
  | .call o c =>
      if h.MayCall o c then ((Bank.store o).perform c h.bank).1.map (.of c.value) else none
  | .createAccount n => some (.of .account (h.bank.createAccount n).1)
  | .updateAccount number account balance =>
      if h.MayState number account then
        ((Request.updateAccount account balance).proceed number h.bank).1
      else none
  | .deleteAccount number account =>
      if h.MayState number account then ((Request.deleteAccount account).proceed number h.bank).1
      else none
  | _ => none

/-- **No balance is negative** at a hall, nor is any that it replies with. -/
structure Solvent (h : Hall) : Prop where
  bank : h.bank.Solvent
  query : ∀ q, (Reply.done (h.bank.answer q)).Solvent
  reply : ∀ m reply, h.reply? m = some reply → reply.Solvent

variable {h : Hall} {o : Owner} {c : Call} {reply : Reply}

theorem Sound.solvent_call (h₀ : h.Sound) (hn : h.bank.nonNegative = true) (hc : h.MayCall o c)
    (hreply : ((Bank.store o).perform c h.bank).1.map (.of c.value) = some reply) :
    reply.Solvent := by
  obtain ⟨answer, hanswer, rfl⟩ := Option.map_eq_some_iff.1 hreply
  cases c with
  | addBalance account delta =>
      exact h₀.bank.solvent_addBalance hn (hc.1.2 (by simp)) hc.2 hanswer
  | _ => cases answer <;> exact Reply.solvent_of_rows_nil rfl

theorem Sound.solvent_reply (h₀ : h.Sound) (hn : h.bank.nonNegative = true) {m : Move}
    (hreply : h.reply? m = some reply) : reply.Solvent := by
  cases m with
  | call o c =>
      obtain ⟨hc, hreply⟩ := Option.ite_none_right_eq_some.1 hreply
      exact h₀.solvent_call hn hc hreply
  | createAccount n =>
      obtain rfl := Option.some.inj hreply
      exact Bank.solvent_createAccount hn n
  | updateAccount number account balance =>
      obtain ⟨hm, hreply⟩ := Option.ite_none_right_eq_some.1 hreply
      have hcan : h.bank.CanProceed {} h.awaits number (.updateAccount account balance) := hm
      exact hcan.solvent h₀.bank hn hreply
  | deleteAccount number account =>
      obtain ⟨hm, hreply⟩ := Option.ite_none_right_eq_some.1 hreply
      have hcan : h.bank.CanProceed {} h.awaits number (.deleteAccount account) := hm
      exact hcan.solvent h₀.bank hn hreply
  | _ => cases hreply

end Hall

/-! ## Desks -/

namespace Desk

/-- **No balance is negative** at a desk, nor is any that it replies with. -/
structure Solvent (d : Desk) : Prop where
  bank : d.bank.Solvent
  reply : ∀ e reply, d.reply? e = some reply → reply.Solvent

variable {spent : Spent} {d : Desk} {number : Nat} {r : Request} {reply : Reply}

theorem solvent_attempt (hd : d.Sound spent) (hn : d.bank.nonNegative = true)
    (hcan : d.bank.CanProceed spent d.awaits number r)
    (hreply : (d.attempt number r).1 = some reply) : reply.Solvent := by
  rw [attempt_reply] at hreply
  exact hcan.solvent hd.bank hn hreply

theorem solvent_call (hd : d.Sound spent) (hn : d.bank.nonNegative = true)
    (hcan : d.bank.CanProceed spent d.awaits d.next r)
    (hreply : (d.call r).1.reply? = some reply) : reply.Solvent := by
  rw [reply?_call] at hreply
  exact solvent_attempt hd hn hcan hreply

theorem solvent_onUnit (hd : d.Sound spent) (hn : d.bank.nonNegative = true) {unit : String}
    (ho : d.bank.IsOpen (.unit unit)) (hidle : ¬ d.isBusy unit = true) {action : UnitAction}
    (hreply : (d.onUnit unit action).1.reply? = some reply) : reply.Solvent := by
  cases action with
  | addBalance account delta =>
      have hnone := Desk.awaits_of_idle (Desk.idle_of_not_busy hidle)
      have hcan : d.bank.CanProceed spent d.awaits d.next (.addBalance unit account delta) :=
        ⟨ho, hd.closed_of_new, .inl hnone⟩
      exact solvent_call hd hn hcan hreply
  | createTransfer n =>
      obtain rfl := Option.some.inj hreply
      cases (d.bank.createTransfer (.unit unit) n).1 <;> exact Reply.solvent_of_rows_nil rfl
  | createEntry n =>
      obtain rfl := Option.some.inj hreply
      cases (d.bank.createEntry (.unit unit) n).1 <;> exact Reply.solvent_of_rows_nil rfl
  | _ =>
      obtain rfl := Option.some.inj hreply
      exact Reply.solvent_of_rows_nil rfl

theorem solvent_submit (hd : d.Sound spent) (hn : d.bank.nonNegative = true)
    (hbank : d.bank.Solvent) {c : Command} (hreply : (d.submit c).1.reply? = some reply) :
    reply.Solvent := by
  cases c with
  | query q =>
      obtain rfl := Option.some.inj hreply
      exact hbank.solvent_answer q
  | createAccount n =>
      obtain rfl := Option.some.inj hreply
      exact Bank.solvent_createAccount hn n
  | updateAccount id balance =>
      have hcan : d.bank.CanProceed spent d.awaits d.next (.updateAccount id balance) :=
        ⟨hd.closed_of_new, .inl hd.awaits_next⟩
      exact solvent_call hd hn hcan hreply
  | deleteAccount id =>
      have hcan : d.bank.CanProceed spent d.awaits d.next (.deleteAccount id) :=
        ⟨hd.closed_of_new, .inl hd.awaits_next⟩
      exact solvent_call hd hn hcan hreply
  | begin unit =>
      rcases d.submit_begin_cases unit with ⟨-, heq⟩ | ⟨-, heq⟩
      · rw [heq] at hreply
        cases hreply
      · rw [heq] at hreply
        obtain rfl := Option.some.inj hreply
        exact Reply.solvent_of_rows_nil rfl
  | onUnit unit action =>
      rcases d.submit_onUnit_cases unit action with ⟨refusal, heq⟩ | ⟨ho, hidle, heq⟩
      · rw [heq] at hreply
        cases hreply
      · rw [heq] at hreply
        exact solvent_onUnit hd hn ho hidle hreply
  | transfer n faults => exact solvent_call hd hn (hd.canStart n faults) hreply

theorem solvent_reply (hd : d.Sound spent) (hn : d.bank.nonNegative = true)
    (hbank : d.bank.Solvent) {e : Event} (hreply : d.reply? e = some reply) : reply.Solvent := by
  cases e with
  | command c => exact solvent_submit hd hn hbank hreply
  | poll number =>
      rcases d.poll_cases number with ⟨-, heq⟩ | ⟨r, hr, -, heq⟩
      · rw [reply?, heq] at hreply
        cases hreply
      · rw [reply?, heq] at hreply
        exact solvent_attempt hd hn (hd.canProceed hr) hreply
  | _ => cases hreply

end Desk

/-! ## The main result -/

/-- What is committed after any moves is what they brought about. -/
theorem Hall.solvent_ledger (ms : List Move) :
    ((opening true).afterAll ms).bank.ledger.Solvent ∧
      ((opening true).afterAll ms).bank.nonNegative = true := by
  obtain ⟨hledger, hallowed, hn⟩ := (sound_opening true).brings_all ms
  rw [hledger]
  exact ⟨Ledger.Solvent.applyAll Ledger.Balances.empty hallowed, hn⟩

/-- **Balances are never negative, not even for a moment,** if the bank does not allow it: whatever
account statements, adjustments, transfers, commits, rollbacks, drops and cancellations follow each
other, call by call or at a desk, and whatever is answered meanwhile. -/
theorem Hall.solvent_run :
    (∀ ms, ((opening true).afterAll ms).Solvent) ∧
    ∀ es, ((Desk.opening true).afterAll es).Solvent := by
  have hhall : ∀ ms, ((opening true).afterAll ms).Solvent := by
    intro ms
    have h₀ := sound_run true ms
    obtain ⟨hledger, hn⟩ := solvent_ledger ms
    have hbank := h₀.solvent hn hledger
    exact ⟨hbank, hbank.solvent_answer, fun m reply hreply => h₀.solvent_reply hn hreply⟩
  refine ⟨hhall, fun es => ?_⟩
  obtain ⟨ms, hbank, -⟩ := comes_desk true es
  have hsolvent := (hhall ms).bank
  have hn := (solvent_ledger ms).2
  rw [hbank] at hsolvent hn
  have hd := (Desk.Reachable.opening.afterAll es : Desk.Reachable true _).sound
  exact ⟨hsolvent, fun e reply hreply => Desk.solvent_reply hd hn hsolvent hreply⟩

end DoubleEntry
