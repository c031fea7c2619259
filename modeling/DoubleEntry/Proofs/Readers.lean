import DoubleEntry.Proofs.AppendOnly
import DoubleEntry.Proofs.Conservation
import DoubleEntry.Proofs.Erasure
import DoubleEntry.Proofs.Repetition
set_option autoImplicit false

/-! # What readers see, and when

All that there is to see of a bank is its `View`, and the view is that of the ledger. Of what goes
on in a unit of work nothing is to be seen (`Hall.Hides`, `Desk.Hides`) until it is committed, and
then everything at once (`Bank.Publishes`): however many rows it has staged and balances it has
changed, there is a view without any of them, and the next one has them all. Here a commit is one
call among others, and readers come between two calls.
-/

namespace DoubleEntry

/-! ## Views -/

/-- Everything that readers can see: the answers to all queries, and the two counts. -/
structure View where
  answers : Query → Value
  transferCount : Nat
  entryCount : Nat

/-- What readers see of a bank. -/
def Bank.view (b : Bank) : View := ⟨b.answer, b.transferCount, b.entryCount⟩

/-- What readers would see if there were nothing but a ledger. -/
def Ledger.view (l : Ledger) : View := ⟨l.answer, l.transfers.size, l.entries.size⟩

namespace Bank

variable {nonNegative : Bool} {b b' : Bank} {ds : List Deed}

/-- **Readers see what is committed** and nothing else. -/
theorem view_eq (b : Bank) : b.view = b.ledger.view := by
  unfold view Ledger.view
  rw [funext b.answer_eq]
  rfl

theorem view_of_ledger (h : b'.ledger = b.ledger) : b'.view = b.view := by
  rw [view_eq, view_eq, h]

/-! ## Commits -/

/-- **What is done in a unit of work becomes visible at once.** Before its commit none of the rows
that it staged is to be seen; afterwards they all are, and every balance has changed by what the
unit of work has added to it. Nothing else is different. -/
structure Publishes (ds : List Deed) (b b' : Bank) : Prop where
  view : b'.view = (b.ledger.enactAll ds).view
  transfer : ∀ {t}, .transfer t ∈ ds → b.getTransfer t.id = none ∧ b'.getTransfer t.id = some t
  entry : ∀ {e}, .entry e ∈ ds → b.getEntry e.id = none ∧ b'.getEntry e.id = some e
  account : ∀ a, b'.getAccount a =
    (b.getAccount a).map fun x => x.plus (ds.map (Deed.change a)).sum
  transferCount : b'.transferCount = b.transferCount + (ds.filterMap Deed.transfer?).length
  entryCount : b'.entryCount = b.entryCount + (ds.filterMap Deed.entry?).length

theorem Publishes.of_allows (h : b.ledger.Allows nonNegative (.committed ds))
    (hledger : b'.ledger = b.ledger.enactAll ds) : b.Publishes ds b' := by
  obtain ⟨hadmits, hnew⟩ := h
  have htransfers : b'.transfers = (ds.filterMap Deed.transfer?).foldl
      (fun t x => t.insert x.id x) b.transfers :=
    (congrArg Ledger.transfers hledger).trans (b.ledger.transfers_enactAll ds)
  have hentries : b'.entries = (ds.filterMap Deed.entry?).foldl
      (fun t x => t.insert x.id x) b.entries :=
    (congrArg Ledger.entries hledger).trans (b.ledger.entries_enactAll ds)
  refine ⟨?_, ?_, ?_, ?_, ?_, ?_⟩
  · rw [view_eq, hledger]
  · intro t ht
    have hmem := Deed.mem_transfers.2 ht
    refine ⟨hnew.transfer t hmem, ?_⟩
    unfold getTransfer
    rw [htransfers]
    exact Table.get?_foldl_insert_of_mem hnew.transfers hmem
  · intro e he
    have hmem := Deed.mem_entries.2 he
    refine ⟨hnew.entry e hmem, ?_⟩
    unfold getEntry
    rw [hentries]
    exact Table.get?_foldl_insert_of_mem hnew.entries hmem
  · intro a
    rw [getAccount_eq, getAccount_eq, hledger, Ledger.get?_enactAll hadmits]
    rfl
  · exact (congrArg Table.size htransfers).trans
      (Table.size_foldl_insert hnew.transfers hnew.transfer)
  · exact (congrArg Table.size hentries).trans (Table.size_foldl_insert hnew.entries hnew.entry)

end Bank

/-! ## Call by call -/

namespace Hall

/-- Moves that nothing is to be seen of: everything that is done in a unit of work short of its
commit, whatever it is answered and whether it has to wait, giving it up, and statements about
accounts that wait or fail. -/
inductive Hides (h : Hall) : Move → Prop
  | call (o : Owner) {c : Call} (hc : c ≠ .commit) : h.Hides (.call o c)
  | leave (o : Owner) : h.Hides (.leave o)
  | drop (o : Owner) : h.Hides (.drop o)
  | tick (now : Timestamp) : h.Hides (.tick now)
  | createAccount {n : NewAccount} {e : LedgerError}
      (failed : (h.bank.createAccount n).1 = .error e) : h.Hides (.createAccount n)
  | updateAccount {number : Nat} {account balance : Int}
      (kept : ∀ x, (h.bank.updateAccount (.call number) account balance).1 ≠ some (.ok (some x))) :
      h.Hides (.updateAccount number account balance)
  | deleteAccount {number : Nat} {account : Int}
      (kept : (h.bank.deleteAccount (.call number) account).1 ≠ some (.ok true)) :
      h.Hides (.deleteAccount number account)

variable {h : Hall} {m : Move} {o : Owner}

theorem Hides.effects (hm : h.Hides m) : h.effects m = [] := by
  cases hm with
  | @call _ c hc =>
      cases c with
      | commit => exact absurd rfl hc
      | _ => rfl
  | leave => rfl
  | drop => rfl
  | tick => rfl
  | @createAccount n e failed =>
      show Effect.ofOpening n (h.bank.createAccount n).1 = []
      rw [failed]
      rfl
  | @updateAccount number account balance kept =>
      unfold Hall.effects
      dsimp only
      split
      · unfold Request.effects Request.proceed
        dsimp only
        rcases hanswer : (h.bank.updateAccount (.call number) account balance).1 with
          _ | e | _ | x
        · rfl
        · rfl
        · rfl
        · exact absurd hanswer (kept x)
      · rfl
  | @deleteAccount number account kept =>
      unfold Hall.effects
      dsimp only
      split
      · unfold Request.effects Request.proceed
        dsimp only
        rcases hanswer : (h.bank.deleteAccount (.call number) account).1 with
          _ | e | _ | _
        · rfl
        · rfl
        · rfl
        · exact absurd hanswer kept
      · rfl

/-- **Nothing is to be seen** of what is not committed. -/
theorem Sound.view_after (h₀ : h.Sound) (hm : h.Hides m) : (h.after m).bank.view = h.bank.view := by
  have hledger := (h₀.brings m).ledger
  rw [hm.effects] at hledger
  exact Bank.view_of_ledger hledger

/-- **A commit is to be seen at once.** -/
theorem Sound.publishes (h₀ : h.Sound) (hc : h.MayCall o .commit) :
    h.bank.Publishes (h.deeds o) (h.after (.call o .commit)).bank := by
  have hbrings := h₀.brings (.call o .commit)
  rw [show h.effects (.call o .commit) = [.committed (h.deeds o)] from if_pos hc] at hbrings
  exact .of_allows (Ledger.allowsAll_singleton.1 hbrings.allowed) hbrings.ledger

end Hall

/-! ## At a desk -/

/-- A reply by which nothing has changed. -/
def Reply.Silent : Reply → Prop
  | .failed _ | .done .nothing | .done (.flag false) => True
  | .transfer (.failed _) _ | .transfer .overflowed _ => True
  | _ => False

theorem Reply.Silent.effects {r : Reply} (h : r.Silent) (c : Command) : Effect.of c r = [] := by
  unfold Effect.of
  split <;> first | rfl | exact h.elim

/-- Events that nothing is to be seen of: everything that is done in a unit of work short of its
commit, cancellations, and calls that wait, are refused or change nothing. -/
inductive Desk.Hides (d : Desk) : Event → Prop
  | query (q : Query) : d.Hides (.command (.query q))
  | begin (u : String) : d.Hides (.command (.begin u))
  | onUnit (u : String) {action : UnitAction} (h : action ≠ .commit) :
      d.Hides (.command (.onUnit u action))
  /-- An adjustment that had to wait is asked to go on. -/
  | adjust {number : Nat} {u : String} {account delta : Int}
      (h : d.pending.lookup number = some (.addBalance u account delta)) : d.Hides (.poll number)
  | cancel (number : Nat) : d.Hides (.cancel number)
  | skip : d.Hides .skip
  | tick (now : Timestamp) : d.Hides (.tick now)
  | unanswered {e : Event} (h : d.reply? e = none) : d.Hides e
  | silent {e : Event} {r : Reply} (h : d.reply? e = some r) (hr : r.Silent)
      (hcommit : ∀ u, e ≠ .command (.onUnit u .commit)) : d.Hides e

namespace History

variable {spent : Spent} {nonNegative : Bool} {s : History} {e : Event} {es : List Effect}

/-- What is noted at an event has taken effect. -/
theorem Sound.takes_effect (h : s.Sound spent nonNegative)
    (heq : (s.after e).journal.effects = s.journal.effects ++ es) :
    (s.after e).desk.bank.ledger = s.desk.bank.ledger.applyAll es ∧
      s.desk.bank.ledger.AllowsAll nonNegative es := by
  have h' := h.after e
  have hallowed := h'.allowed
  rw [heq, Ledger.allowsAll_append, ← h.ledger] at hallowed
  refine ⟨?_, hallowed.2⟩
  rw [h'.ledger, heq, Ledger.applyAll_append, ← h.ledger]

theorem effects_hidden (he : s.desk.Hides e) :
    (s.after e).journal.effects = s.journal.effects := by
  -- A reply that says nothing about the ledger is noted without an effect.
  have noted : ∀ {c : Command} {reply : Option Reply}, (∀ u, c ≠ .onUnit u .commit) →
      (∀ r, reply = some r → Effect.of c r = []) →
      (reply.elim s.journal (s.journal.note c)).effects = s.journal.effects := by
    intro c reply hc hnone
    cases reply with
    | none => rfl
    | some r =>
        rw [Option.elim_some, s.journal.effects_note hc, hnone r rfl, List.append_nil]
  have polled : ∀ {number : Nat}, (∀ r, s.desk.pending.lookup number = some r →
      ∀ reply, (s.desk.poll number).1 = some reply → Effect.of r.command reply = []) →
      (s.after (.poll number)).journal.effects = s.journal.effects := by
    intro number hnone
    unfold History.after
    dsimp only
    cases hl : s.desk.pending.lookup number with
    | none => rfl
    | some r =>
        refine noted (fun u => ?_) (hnone r hl)
        cases r <;> simp [Request.command]
  cases he with
  | query q => exact noted (by simp) fun _ _ => rfl
  | begin u => exact noted (by simp) fun _ _ => rfl
  | onUnit u h => exact noted (fun v hv => h (by injection hv)) fun _ _ => rfl
  | adjust h =>
      refine polled fun r hr reply _ => ?_
      obtain rfl := Option.some.inj (h.symm.trans hr)
      rfl
  | cancel => rfl
  | skip => rfl
  | tick => rfl
  | unanswered h =>
      cases e with
      | command c =>
          show ((s.desk.submit c).1.reply?.elim s.journal (s.journal.note c)).effects = _
          rw [show (s.desk.submit c).1.reply? = none from h]
          rfl
      | poll number => exact polled fun r _ reply hreply => by cases h.symm.trans hreply
      | _ => rfl
  | silent h hr hcommit =>
      cases e with
      | command c =>
          refine noted (fun u hu => hcommit u (by rw [hu])) fun reply hreply => ?_
          obtain rfl := Option.some.inj (h.symm.trans hreply)
          exact hr.effects c
      | poll number =>
          refine polled fun r _ reply hreply => ?_
          obtain rfl := Option.some.inj (h.symm.trans hreply)
          exact hr.effects r.command
      | _ => rfl

/-- The commit of a unit of work is noted with what the unit of work has done. -/
theorem effects_commit {u : String} (ho : s.desk.bank.IsOpen (.unit u))
    (hbusy : ¬ s.desk.isBusy u = true) :
    (s.after (.command (.onUnit u .commit))).journal.effects =
      s.journal.effects ++ [.committed (s.journal.drafts u)] := by
  show ((s.desk.submit (.onUnit u .commit)).1.reply?.elim s.journal
    (s.journal.note (.onUnit u .commit))).effects = _
  rcases s.desk.submit_onUnit_cases u .commit with ⟨refusal, heq⟩ | ⟨-, -, heq⟩
  · -- The command is not refused: the unit of work is open and not busy.
    have hfree : s.desk.unavailable? u = none := by
      simp [Desk.unavailable?, hbusy, show s.desk.isOpen u = true from ho]
    simp [Desk.submit, hfree, Desk.onUnit, Desk.atOnce] at heq
  · rw [heq]
    rfl

/-- A transfer that is carried out is noted with what its receipt says. -/
theorem effects_completed {n : NewTransfer} {r : Receipt} (h : Desk.Completes n s.desk e r) :
    (s.after e).journal.effects = s.journal.effects ++ [.committed (r.deeds n)] := by
  obtain ⟨ht, made, hreply⟩ := h
  cases e with
  | command c =>
      cases c with
      | transfer t faults =>
          obtain rfl := Option.some.inj ht
          show ((s.desk.submit (.transfer t faults)).1.reply?.elim s.journal
            (s.journal.note (.transfer t faults))).effects = _
          rw [show (s.desk.submit (.transfer t faults)).1.reply? = _ from hreply]
          rfl
      | _ => cases ht
  | poll number =>
      unfold Desk.transfer? at ht
      unfold History.after
      dsimp only at ht ⊢
      cases hl : s.desk.pending.lookup number with
      | none =>
          rw [hl] at ht
          cases ht
      | some q =>
          rw [hl] at ht
          cases q with
          | transfer run =>
              obtain rfl := Option.some.inj ht
              rw [show (s.desk.poll number).1 = _ from hreply]
              rfl
          | _ => cases ht
  | _ => cases ht

/-- What is noted as the commit of a unit of work is published. -/
theorem Sound.publishes {ds : List Deed} (h : s.Sound spent nonNegative)
    (heq : (s.after e).journal.effects = s.journal.effects ++ [.committed ds]) :
    s.desk.bank.Publishes ds (s.desk.after e).bank := by
  obtain ⟨hledger, hallowed⟩ := h.takes_effect heq
  exact .of_allows (Ledger.allowsAll_singleton.1 hallowed) hledger

end History

namespace Desk.Reachable

variable {nonNegative : Bool} {d : Desk} {e : Event}

/-- **Nothing is to be seen** of what is not committed. -/
theorem view_after (hd : Reachable nonNegative d) (he : d.Hides e) :
    (d.after e).bank.view = d.bank.view := by
  obtain ⟨s, rfl, hs⟩ := hd.history
  have hnone := History.effects_hidden he
  rw [← List.append_nil s.journal.effects] at hnone
  exact Bank.view_of_ledger (hs.takes_effect hnone).1

/-- Calls that go on waiting when they are asked show nothing. -/
theorem view_pollEach (hd : Reachable nonNegative d) {numbers : List Nat}
    (hnone : (d.pollEach numbers).1 = []) :
    (d.pollEach numbers).2.bank.view = d.bank.view := by
  induction numbers generalizing d with
  | nil => rfl
  | cons k rest ih =>
      unfold Desk.pollEach at hnone ⊢
      have hview := hd.view_after (e := .poll k)
      have hnext := hd.poll k
      rcases hpoll : d.poll k with ⟨_ | reply, d'⟩
      · rw [hpoll] at hnone hnext
        dsimp only at hnone ⊢
        rw [ih hnext hnone]
        have hsame := hview (.unanswered (congrArg Prod.fst hpoll))
        rwa [show d.after (.poll k) = d' from congrArg Prod.snd hpoll] at hsame
      · -- The reply of a call that ended would be in the list.
        rw [hpoll] at hnone
        cases hnone

/-- Nothing is to be seen as long as no pending call ends. -/
theorem view_settle (hd : Reachable nonNegative d) (hnone : d.settle.1 = []) :
    d.settle.2.bank.view = d.bank.view := by
  unfold Desk.settle Desk.settleFor at hnone ⊢
  have hview : (d.pollEach (d.pending.map Prod.fst)).1 = [] →
      (d.pollEach (d.pending.map Prod.fst)).2.bank.view = d.bank.view := hd.view_pollEach
  generalize d.pollEach (d.pending.map Prod.fst) = x at hnone hview ⊢
  obtain ⟨replies, d'⟩ := x
  dsimp only at hnone hview ⊢
  cases replies with
  | nil => exact hview rfl
  | cons p replies => simp at hnone

end Desk.Reachable

/-! ## Between calls -/

/-- **What readers see between two calls,** with anything in flight. -/
structure Hall.Answers (h : Hall) : Prop where
  /-- They see what is committed and nothing else. -/
  committed : h.bank.view = h.bank.ledger.view
  /-- Whatever is done in a unit of work short of its commit is not to be seen, nor is what waits
  or fails. -/
  hides : ∀ m, h.Hides m → (h.after m).bank.view = h.bank.view
  /-- A commit is to be seen as a whole. -/
  publishes : ∀ o, h.MayCall o .commit →
    h.bank.Publishes (h.deeds o) (h.after (.call o .commit)).bank

theorem Hall.Sound.answers {h : Hall} (h₀ : h.Sound) : h.Answers :=
  ⟨h.bank.view_eq, fun _ hm => h₀.view_after hm, fun _ hc => h₀.publishes hc⟩

/-- **What readers see between two events** at a desk. -/
structure History.Answers (s : History) : Prop where
  /-- A query is answered at once, from what is committed. -/
  query : ∀ q, s.desk.submit (.query q) =
    (.reply (.done (s.desk.bank.ledger.answer q)), s.desk.count)
  /-- What is hidden may only let pending calls end, and is not to be seen as long as it does
  not. -/
  hides : ∀ e, s.desk.Hides e → (s.desk.after e).bank.view = s.desk.bank.view ∧
    ((s.desk.after e).settle.1 = [] → (s.desk.after e).settle.2.bank.view = s.desk.bank.view)
  /-- The commit of a unit of work with a name is to be seen as a whole. -/
  unit : ∀ u, s.desk.bank.IsOpen (.unit u) → ¬ s.desk.isBusy u = true →
    s.desk.bank.Publishes (s.journal.drafts u)
      (s.desk.after (.command (.onUnit u .commit))).bank
  /-- So is a transfer that is carried out. -/
  transfer : ∀ n e r, Desk.Completes n s.desk e r →
    s.desk.bank.Publishes (r.deeds n) (s.desk.after e).bank

theorem History.answers (nonNegative : Bool) (es : List Event) :
    (History.run nonNegative es).Answers := by
  have hs := History.sound_run nonNegative es
  have hd : Desk.Reachable nonNegative (History.run nonNegative es).desk := by
    rw [History.desk_run]
    exact Desk.Reachable.opening.afterAll es
  refine ⟨fun q => ?_, fun e he => ?_, fun u ho hbusy => ?_, fun n e r hc => ?_⟩
  · rw [← Bank.answer_eq]
    rfl
  · have hview := hd.view_after he
    exact ⟨hview, fun hnone => ((hd.after e).view_settle hnone).trans hview⟩
  · exact hs.publishes (History.effects_commit ho hbusy)
  · exact hs.publishes (History.effects_completed hc)

end DoubleEntry
