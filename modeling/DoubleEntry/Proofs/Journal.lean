import DoubleEntry.Bank.Event
import DoubleEntry.Proofs.Desks
set_option autoImplicit false

/-! # The journal of a run

A journal is kept of what happens at a desk, from nothing but the commands and the replies to them:
what was done in each unit of work that is open, and what took effect on the ledger, in that order.
The main result is that the ledger of the bank is always what the effects in the journal make of an
empty ledger (`History.Sound`), each of which was allowed when it took effect.
-/

namespace DoubleEntry

open Function (update update_self update_of_ne)

/-- What the commands of a run and the replies to them say. -/
structure Journal where
  /-- What was done in the open unit of work of each name. -/
  drafts : String → List Deed := fun _ => []
  /-- What took effect, in that order. -/
  effects : List Effect := []

namespace Journal

/-- Notes what was done so far in a unit of work. -/
def draft (j : Journal) (unit : String) (ds : List Deed) : Journal :=
  { j with drafts := update j.drafts unit ds }

/-- Notes the reply to something done in a unit of work. Operations that fail are not noted, and a
unit of work that is not committed is forgotten. -/
def noteUnit (j : Journal) (unit : String) : UnitAction → Reply → Journal
  | .createTransfer _, .done (.transfer t) => j.draft unit (j.drafts unit ++ [.transfer t])
  | .createEntry _, .done (.entry e) => j.draft unit (j.drafts unit ++ [.entry e])
  | .addBalance account delta, .done (.account answer) =>
      j.draft unit (j.drafts unit ++ [.adjustment account delta answer])
  | .commit, .done _ =>
      { j.draft unit [] with effects := j.effects ++ [.committed (j.drafts unit)] }
  | .rollback, .done _ | .drop, .done _ => j.draft unit []
  | _, _ => j

/-- Notes the reply to a command. -/
def note (j : Journal) : Command → Reply → Journal
  | .begin unit, .done _ => j.draft unit []
  | .onUnit unit action, reply => j.noteUnit unit action reply
  | c, reply => { j with effects := j.effects ++ Effect.of c reply }

section Noting

variable (j : Journal) (unit : String)

theorem noteUnit_createTransfer (n : NewTransfer) (answer : Except LedgerError Transfer) :
    j.noteUnit unit (.createTransfer n) (.of .transfer answer) =
      j.draft unit (j.drafts unit ++ Deed.noted .transfer answer) := by
  cases answer with
  | ok t => rfl
  | error e => simp [draft, noteUnit, Reply.of, Deed.noted]

theorem noteUnit_createEntry (n : NewEntry) (answer : Except LedgerError Entry) :
    j.noteUnit unit (.createEntry n) (.of .entry answer) =
      j.draft unit (j.drafts unit ++ Deed.noted .entry answer) := by
  cases answer with
  | ok e => rfl
  | error e => simp [draft, noteUnit, Reply.of, Deed.noted]

theorem note_createAccount (n : NewAccount) (answer : Except LedgerError Account) :
    j.note (.createAccount n) (.of .account answer) =
      { j with effects := j.effects ++ Effect.ofOpening n answer } := by
  cases answer <;> rfl

end Noting

end Journal

/-- The reply in what a command answers at once. -/
def Response.reply? : Response → Option Reply
  | .reply r => some r
  | _ => none

/-- A call that is taken replies as soon as it does not have to wait. -/
theorem Desk.reply?_call (d : Desk) (r : Request) :
    (d.call r).1.reply? = (d.attempt d.next r).1 := by
  unfold Desk.call
  rcases d.attempt d.next r with ⟨_ | reply, d'⟩ <;> rfl

/-- The reply at an event, if there is one. -/
def Desk.reply? (d : Desk) : Event → Option Reply
  | .command c => (d.submit c).1.reply?
  | .poll number => (d.poll number).1
  | _ => none

/-- A desk with the journal of what happened at it. -/
structure History where
  desk : Desk
  journal : Journal := {}

namespace History

/-- A desk at a bank without accounts, and an empty journal. -/
def opening (nonNegative : Bool) : History := { desk := .opening nonNegative }

/-- What an event brings about. A reply to a pending call is noted for the command that the call
stems from. -/
def after (s : History) (e : Event) : History where
  desk := s.desk.after e
  journal :=
    match e with
    | .command c => (s.desk.submit c).1.reply?.elim s.journal (s.journal.note c)
    | .poll number =>
        match s.desk.pending.lookup number with
        | some r => (s.desk.poll number).1.elim s.journal (s.journal.note r.command)
        | none => s.journal
    | _ => s.journal

/-- **A run:** what events bring about, one after the other. -/
def run (nonNegative : Bool) (es : List Event) : History := es.foldl after (opening nonNegative)

/-- When a call is asked to go on, its reply is noted. -/
theorem after_poll_cases (s : History) (number : Nat) :
    s.after (.poll number) = s ∨
    ∃ r, (number, r) ∈ s.desk.pending ∧ s.after (.poll number) =
      ⟨(s.desk.attempt number r).2,
        (s.desk.attempt number r).1.elim s.journal (s.journal.note r.command)⟩ := by
  unfold History.after Desk.after
  rcases s.desk.poll_cases number with ⟨hl, heq⟩ | ⟨r, hr, hl, heq⟩
  · left
    simp only [hl, heq]
  · right
    simp only [hl, heq]
    exact ⟨r, hr, rfl⟩

/-- **A sound history.** The open units of work have done what the journal says, and so has the
ledger become what it is. -/
structure Sound (spent : Spent) (nonNegative : Bool) (s : History) : Prop where
  desk : s.desk.Sound spent
  drafts : ∀ {u}, s.desk.bank.IsOpen (.unit u) →
    s.desk.bank.Reflects (.unit u) (s.journal.drafts u)
  ledger : s.desk.bank.ledger = Ledger.applyAll {} s.journal.effects
  allowed : Ledger.AllowsAll nonNegative {} s.journal.effects
  nonNegative : s.desk.bank.nonNegative = nonNegative

namespace Sound

variable {spent : Spent} {nonNegative : Bool} {s : History} {d : Desk} {o : Owner}
  {es : List Effect}

/-- Something was brought about by an owner, and noted. -/
theorem perform (h : s.Sound spent nonNegative) (hd : d.Sound spent)
    (hp : s.desk.bank.Performs spent o es d.bank) (drafts : String → List Deed)
    (hsame : ∀ u, .unit u ≠ o → drafts u = s.journal.drafts u)
    (hown : ∀ u, .unit u = o → d.bank.IsOpen o → d.bank.Reflects o (drafts u)) :
    (⟨d, drafts, s.journal.effects ++ es⟩ : History).Sound spent nonNegative where
  desk := hd
  drafts := by
    intro u hu
    -- The draft of the owner is the given one, and those of the others are untouched.
    by_cases ho : .unit u = o
    · have hown := hown u ho (ho ▸ hu)
      rwa [← ho] at hown
    · have hk := hp.keeps ho
      have hdrafts := (h.drafts (hk.isOpen.1 hu)).of_keeps hk hd.bank.anchored
      rwa [← hsame u ho] at hdrafts
  ledger := by rw [hp.ledger, h.ledger, Ledger.applyAll_append]
  allowed := by
    have hallowed := hp.allowed
    rw [h.ledger, h.nonNegative] at hallowed
    exact Ledger.allowsAll_append.2 ⟨h.allowed, hallowed⟩
  nonNegative := hp.nonNegative.trans h.nonNegative

/-- Nothing was brought about that is noted. -/
theorem unnoted (h : s.Sound spent nonNegative) (hd : d.Sound spent)
    (hp : s.desk.bank.Performs spent o [] d.bank)
    (hown : ∀ u, .unit u = o → d.bank.IsOpen o → d.bank.Reflects o (s.journal.drafts u)) :
    (⟨d, s.journal⟩ : History).Sound spent nonNegative := by
  have hperform := h.perform hd hp _ (fun _ _ => rfl) hown
  rwa [List.append_nil] at hperform

/-- Numbers of commands are counted and time passes. -/
theorem idle (h : s.Sound spent nonNegative) (clock : Timestamp) (metrics : Metrics) {next : Nat}
    (hnext : s.desk.next ≤ next) :
    (⟨{ s.desk with bank := { s.desk.bank with clock }, metrics, next }, s.journal⟩ :
      History).Sound spent nonNegative where
  desk := h.desk.with_bank
    (h.desk.bank.with_numbers clock s.desk.bank.nextAccount s.desk.bank.nextEntry
      s.desk.bank.nextTransfer) (h.desk.fresh.tick clock)
    (fun _ => .of_work? rfl rfl fun _ _ => rfl) (fun ho => ho) hnext
  drafts hu := (h.drafts hu).with_numbers clock s.desk.bank.nextAccount s.desk.bank.nextEntry
    s.desk.bank.nextTransfer
  ledger := h.ledger
  allowed := h.allowed
  nonNegative := h.nonNegative

/-! ## Calls -/

variable {n next : Nat} {r : Request}

/-- An adjustment in a named unit of work is carried as far as it gets. -/
theorem attempt_addBalance (h : s.Sound spent nonNegative) {unit : String} {account delta : Int}
    (hup : s.desk.Up n (.addBalance unit account delta))
    (hcan : s.desk.bank.CanProceed spent s.desk.awaits n (.addBalance unit account delta))
    (hnext : s.desk.next ≤ next) (hn : n < next) :
    (⟨{ (s.desk.attempt n (.addBalance unit account delta)).2 with next },
      (s.desk.attempt n (.addBalance unit account delta)).1.elim s.journal
        (s.journal.note (.onUnit unit (.addBalance account delta)))⟩ :
          History).Sound spent nonNegative := by
  obtain ⟨hd, hp⟩ := h.desk.attempt hup hcan hnext hn
  have hreflects := (h.drafts hcan.1).addBalance h.desk.bank hcan.1 hcan.2.2 delta
  have hreply := s.desk.attempt_reply n (.addBalance unit account delta)
  have hbank := s.desk.attempt_bank n (.addBalance unit account delta)
  simp only [Request.proceed] at hreply hbank
  rw [← hbank] at hreflects
  change s.desk.bank.Performs spent (.unit unit) _ _ at hp
  -- Only an adjustment that succeeds is added to the draft.
  cases hanswer : (s.desk.bank.addBalance (.unit unit) account delta).1 with
  | none =>
      rw [hanswer] at hreply hreflects
      rw [hreply] at hp ⊢
      refine h.unnoted hd hp fun u hu _ => ?_
      obtain rfl := Owner.unit.inj hu
      simpa using hreflects
  | some answer =>
      rw [hanswer] at hreply hreflects
      rw [hreply] at hp ⊢
      cases answer with
      | error e =>
          refine h.unnoted hd hp fun u hu _ => ?_
          obtain rfl := Owner.unit.inj hu
          simpa [Deed.noted] using hreflects
      | ok a =>
          have hp : s.desk.bank.Performs spent (.unit unit) [] _ := hp
          have hperform := h.perform hd hp (update s.journal.drafts unit
            (s.journal.drafts unit ++ [.adjustment account delta a]))
            (fun u hu => update_of_ne (fun e => hu (congrArg Owner.unit e)) _ _) fun u hu _ => by
              obtain rfl := Owner.unit.inj hu
              rw [update_self]
              exact hreflects
          rw [List.append_nil] at hperform
          exact hperform

/-- **A call is carried as far as it gets,** and its reply noted. -/
theorem attempt (h : s.Sound spent nonNegative) (hup : s.desk.Up n r)
    (hcan : s.desk.bank.CanProceed spent s.desk.awaits n r) (hnext : s.desk.next ≤ next)
    (hn : n < next) :
    (⟨{ (s.desk.attempt n r).2 with next },
      (s.desk.attempt n r).1.elim s.journal (s.journal.note r.command)⟩ :
        History).Sound spent nonNegative := by
  cases r with
  | addBalance unit account delta => exact h.attempt_addBalance hup hcan hnext hn
  | _ =>
      obtain ⟨hd, hp⟩ := h.desk.attempt hup hcan hnext hn
      -- Calls on their own account touch no draft.
      cases hreply : (s.desk.attempt n _).1 with
      | none =>
          rw [hreply] at hp
          exact h.unnoted hd hp fun u hu => nomatch hu
      | some reply =>
          rw [hreply] at hp
          exact h.perform hd hp _ (fun _ _ => rfl) fun u hu => nomatch hu

/-! ## Commands that are carried out at once -/

variable {u : String} {bank : Bank}

/-- Something was done at once in a named unit of work. -/
theorem atUnit (h : s.Sound spent nonNegative) (ds : List Deed)
    (hidle : ∀ {m r}, (m, r) ∈ s.desk.pending → r.owner m ≠ .unit u)
    (hs : bank.Sound s.desk.awaits) (hp : s.desk.bank.Performs spent (.unit u) es bank)
    (hreflects : bank.IsOpen (.unit u) → bank.Reflects (.unit u) ds) :
    (⟨{ s.desk with bank }.count, update s.journal.drafts u ds, s.journal.effects ++ es⟩ :
      History).Sound spent nonNegative := by
  have hd : ({ s.desk with bank }.count).Sound spent :=
    h.desk.with_bank hs hp.fresh (fun hr => hp.keeps (hidle hr))
      (fun ho => (hp.keeps (by simp)).isOpen.1 ho) (Nat.le_succ _)
  refine h.perform hd hp _ (fun v hv => update_of_ne (fun e => hv (congrArg Owner.unit e)) _ _) ?_
  intro v hv ho
  obtain rfl := Owner.unit.inj hv
  rw [update_self]
  exact hreflects ho

/-- A call is taken: it ends at once or is left pending. -/
theorem call (h : s.Sound spent nonNegative) (hup : s.desk.Up s.desk.next r)
    (hcan : s.desk.bank.CanProceed spent s.desk.awaits s.desk.next r) :
    (⟨(s.desk.call r).2, (s.desk.call r).1.reply?.elim s.journal (s.journal.note r.command)⟩ :
      History).Sound spent nonNegative := by
  have hattempt := h.attempt hup hcan (Nat.le_succ _) (Nat.lt_succ_self _)
  have hnext := s.desk.attempt_next s.desk.next r
  unfold Desk.call
  generalize s.desk.attempt s.desk.next r = x at hattempt hnext ⊢
  obtain ⟨_ | reply, d⟩ := x
  · rw [← hnext] at hattempt
    exact hattempt
  · rw [← hnext] at hattempt
    exact hattempt

/-- Something is done in a unit of work that is open and not busy. -/
theorem onUnit (h : s.Sound spent nonNegative) (hopen : s.desk.bank.IsOpen (.unit u))
    (hbusy : ¬ s.desk.isBusy u = true) (action : UnitAction) :
    (⟨(s.desk.onUnit u action).2,
      (s.desk.onUnit u action).1.reply?.elim s.journal (s.journal.note (.onUnit u action))⟩ :
        History).Sound spent nonNegative := by
  have hidle : ∀ {m r}, (m, r) ∈ s.desk.pending → r.owner m ≠ .unit u := fun hr =>
    Desk.idle_of_not_busy hbusy hr
  have hawaits : s.desk.awaits (.unit u) = none := Desk.awaits_of_idle hidle
  have hb := h.desk.bank
  have hf := h.desk.fresh
  have hreflects := h.drafts hopen
  have hn := hb.locking.once (.unit u)
  have hrollback : (⟨{ s.desk with bank := s.desk.bank.rollback (.unit u) }.count,
      s.journal.draft u []⟩ : History).Sound spent nonNegative := by
    have hs := hb.rollback hawaits
    have hunit := h.atUnit [] hidle hs (hb.within_rollback.performs hb hs (hf.rollback hn))
      fun ho => absurd ho (Bank.not_isOpen_rollback hb)
    rw [List.append_nil] at hunit
    exact hunit
  cases action with
  | createTransfer t =>
      obtain ⟨hs, hw, -⟩ := hb.createTransfer hopen t
      have hdeeds := hreflects.createTransfer hb hopen t
      have hunit := h.atUnit _ hidle hs (hw.performs hb hs (hf.createTransfer hopen t))
        fun _ => hdeeds
      rw [List.append_nil] at hunit
      show (⟨_, s.journal.noteUnit u (.createTransfer t) (.of .transfer _)⟩ : History).Sound spent _
      rw [Journal.noteUnit_createTransfer]
      exact hunit
  | createEntry e =>
      obtain ⟨hs, hw, -⟩ := hb.createEntry hopen e
      have hdeeds := hreflects.createEntry hb hopen e
      have hunit := h.atUnit _ hidle hs (hw.performs hb hs (hf.createEntry hopen e)) fun _ => hdeeds
      rw [List.append_nil] at hunit
      show (⟨_, s.journal.noteUnit u (.createEntry e) (.of .entry _)⟩ : History).Sound spent _
      rw [Journal.noteUnit_createEntry]
      exact hunit
  | addBalance account delta =>
      exact h.call (r := .addBalance u account delta) (h.desk.up_next hidle)
        ⟨hopen, h.desk.closed_of_new, .inl hawaits⟩
  | commit =>
      have hs := hb.commit hopen hawaits
      exact h.atUnit [] hidle hs (hreflects.performs hb hf hopen)
        fun ho => absurd ho (Bank.not_isOpen_commit hb hopen)
  | rollback => exact hrollback
  | drop => exact hrollback

/-- **A command keeps a history sound.** -/
theorem submit (h : s.Sound spent nonNegative) (c : Command) :
    (s.after (.command c)).Sound spent nonNegative := by
  have hcounted : (⟨s.desk.count, s.journal⟩ : History).Sound spent nonNegative :=
    h.idle s.desk.bank.clock s.desk.metrics (Nat.le_succ _)
  cases c with
  | query q =>
      show (⟨s.desk.count, s.journal.drafts, s.journal.effects ++ []⟩ : History).Sound spent _
      rwa [List.append_nil]
  | createAccount n =>
      obtain ⟨hs, hk, hledger, hallowed⟩ := h.desk.bank.createAccount h.desk.fresh.nextAccount n
      have hf := h.desk.fresh.createAccount n
      have hd : ({ s.desk with bank := (s.desk.bank.createAccount n).2 }.count).Sound spent :=
        h.desk.with_bank hs hf (fun _ => hk _) (fun ho => (hk _).isOpen.1 ho) (Nat.le_succ _)
      have hp : s.desk.bank.Performs spent (.call s.desk.next) _ (s.desk.bank.createAccount n).2 :=
        ⟨fun _ => hk _, hf, (hk (.call 0)).nonNegative, hledger, hallowed⟩
      show (⟨_, s.journal.note (.createAccount n) (.of .account _)⟩ : History).Sound spent _
      rw [Journal.note_createAccount]
      exact h.perform hd hp _ (fun _ _ => rfl) fun u hu => nomatch hu
  | updateAccount account balance =>
      exact h.call (r := .updateAccount account balance) (h.desk.up_call rfl)
        ⟨h.desk.closed_of_new, .inl h.desk.awaits_next⟩
  | deleteAccount account =>
      exact h.call (r := .deleteAccount account) (h.desk.up_call rfl)
        ⟨h.desk.closed_of_new, .inl h.desk.awaits_next⟩
  | begin unit =>
      show (⟨(s.desk.submit (.begin unit)).2, (s.desk.submit (.begin unit)).1.reply?.elim s.journal
        (s.journal.note (.begin unit))⟩ : History).Sound spent nonNegative
      rcases s.desk.submit_begin_cases unit with ⟨-, heq⟩ | ⟨hopen, heq⟩
      · rw [heq]
        exact hcounted
      · rw [heq]
        -- A pending call of a unit of work keeps it open, so this one has none.
        have hidle : ∀ {m r}, (m, r) ∈ s.desk.pending → r.owner m ≠ .unit unit := by
          intro m r hr e
          have hparked := h.desk.parked hr
          cases r with
          | addBalance u account delta =>
              obtain rfl := Owner.unit.inj e
              exact hopen hparked
          | _ => cases e
        have hs := h.desk.bank.begin hopen
        have hw := Bank.within_begin s.desk.bank (.unit unit)
        have hunit := h.atUnit [] hidle hs (hw.performs h.desk.bank hs (h.desk.fresh.begin _))
          fun _ => .of_empty (by rw [Bank.work_begin, Bank.work_of_not_isOpen hopen])
        rw [List.append_nil] at hunit
        exact hunit
  | onUnit unit action =>
      show (⟨(s.desk.submit (.onUnit unit action)).2,
        (s.desk.submit (.onUnit unit action)).1.reply?.elim s.journal
          (s.journal.note (.onUnit unit action))⟩ : History).Sound spent nonNegative
      rcases s.desk.submit_onUnit_cases unit action with ⟨refusal, heq⟩ | ⟨hopen, hbusy, heq⟩
      · rw [heq]
        exact hcounted
      · rw [heq]
        exact h.onUnit hopen hbusy action
  | transfer n faults =>
      exact h.call (r := .transfer { request := n, faults }) (h.desk.up_call rfl)
        (h.desk.canStart n faults)

/-! ## Runs -/

/-- **Whatever happens keeps a history sound.** -/
theorem after (h : s.Sound spent nonNegative) (e : Event) :
    (s.after e).Sound spent nonNegative := by
  cases e with
  | command c => exact h.submit c
  | poll number =>
      rcases s.after_poll_cases number with heq | ⟨r, hr, heq⟩
      · rwa [heq]
      · have hattempt := h.attempt (h.desk.distinct.up hr) (h.desk.canProceed hr) le_rfl
          (h.desk.below hr)
        rw [← s.desk.attempt_next number r] at hattempt
        rw [heq]
        exact hattempt
  | cancel number =>
      show (⟨(s.desk.cancel number).2, s.journal⟩ : History).Sound spent nonNegative
      rcases s.desk.cancel_cases number with ⟨-, heq⟩ | ⟨r, hr, -, heq⟩
      · rw [heq]
        exact h.idle s.desk.bank.clock s.desk.metrics (Nat.le_succ _)
      · obtain ⟨hd, hw, hk⟩ := h.desk.giveUp hr (Nat.le_succ s.desk.next)
        rw [← s.desk.giveUp_next number r] at hd
        rw [heq]
        refine h.unnoted hd (hw.performs h.desk.bank hd.bank hd.fresh) fun u hu ho => ?_
        -- The unit of work stays open; only its waiting is given up.
        rw [← hu] at ho ⊢
        exact (h.drafts ((hk u hu).isOpen.1 ho)).of_keeps (hk u hu) hd.bank.anchored
  | skip => exact h.idle s.desk.bank.clock s.desk.metrics (Nat.le_succ _)
  | tick now => exact h.idle now s.desk.metrics le_rfl

end Sound

/-- Numbers that are in use no more can be held to be spent from now on. -/
theorem Sound.spend {spent : Spent} {nonNegative : Bool} {s : History}
    (h : s.Sound spent nonNegative) : s.Sound s.desk.bank.usedUp nonNegative :=
  { h with desk := { h.desk with fresh := h.desk.fresh.spend } }

theorem Sound.afterAll {spent : Spent} {nonNegative : Bool} {s : History}
    (h : s.Sound spent nonNegative) (es : List Event) :
    (es.foldl History.after s).Sound spent nonNegative := by
  induction es generalizing s with
  | nil => exact h
  | cons e es ih => exact ih (h.after e)

/-- Keeping a journal changes nothing at the desk. -/
theorem desk_afterAll (s : History) (es : List Event) :
    (es.foldl after s).desk = s.desk.afterAll es := by
  induction es generalizing s with
  | nil => rfl
  | cons e es ih => exact ih (s.after e)

theorem desk_run (nonNegative : Bool) (es : List Event) :
    (run nonNegative es).desk = (Desk.opening nonNegative).afterAll es :=
  desk_afterAll _ es

theorem sound_opening (nonNegative : Bool) : (opening nonNegative).Sound {} nonNegative where
  desk := {
    bank := Bank.sound_empty nonNegative
    fresh := Bank.fresh_empty nonNegative
    distinct := ⟨List.nodup_nil, fun hr => nomatch hr⟩
    below := fun hr => nomatch hr
    waits := fun hr => nomatch hr
    parked := fun hr => nomatch hr
    calls := fun ho => nomatch ho }
  drafts hu := nomatch hu
  ledger := rfl
  allowed := trivial
  nonNegative := rfl

/-- **Every run is sound.** -/
theorem sound_run (nonNegative : Bool) (es : List Event) :
    (run nonNegative es).Sound {} nonNegative :=
  (sound_opening nonNegative).afterAll es

end History

namespace Desk

variable {nonNegative : Bool} {d : Desk}

/-- Every reachable desk is that of a sound history. -/
theorem Reachable.history (h : Reachable nonNegative d) :
    ∃ s : History, s.desk = d ∧ s.Sound {} nonNegative := by
  induction h with
  | opening => exact ⟨_, rfl, History.sound_opening nonNegative⟩
  | after e _ ih =>
      obtain ⟨s, rfl, hs⟩ := ih
      exact ⟨s.after e, rfl, hs.after e⟩

/-- **Every reachable desk is sound.** -/
theorem Reachable.sound (h : Reachable nonNegative d) : d.Sound {} := by
  obtain ⟨s, rfl, hs⟩ := h.history
  exact hs.desk

/-- **Numbers that are in use no more are never used again.** -/
theorem Reachable.sound_afterAll (h : Reachable nonNegative d) (es : List Event) :
    (d.afterAll es).Sound d.bank.usedUp := by
  obtain ⟨s, rfl, hs⟩ := h.history
  rw [← History.desk_afterAll]
  exact (hs.spend.afterAll es).desk

end Desk

end DoubleEntry
