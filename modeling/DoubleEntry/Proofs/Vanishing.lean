import DoubleEntry.Proofs.Deletion
import DoubleEntry.Proofs.Presence
import DoubleEntry.Proofs.Rounds
set_option autoImplicit false

/-! # Deleted accounts are gone for good

The lock of a row outlives the row while others wait for it. Whoever is given it after the deletion
looks for the row again and finds out that it is gone (`Bank.TurnsAway`), so that a deleted account
is never seen, changed or named again (`Bank.Gone`), and no account is opened under its number.
There is one thing that a call on a deleted account can leave behind: a transfer to it that is not
recorded has pinned its source by then.
-/

namespace DoubleEntry

open Function (update update_self update_of_ne)

namespace Bank

variable {b : Bank} {o : Owner} {a delta balance : Int} {awaits : Owner → Option Int}

/-- **What becomes of an owner that asks for a row that is gone.** Somebody new gets the answer at
once, and nothing happens. Somebody who waited when the row was deleted waits until he is given the
lock; then he gets the answer, and the lock goes to the next. -/
structure TurnsAway {α : Type} (b : Bank) (awaits : Owner → Option Int) (o : Owner) (a : Int)
    (answer : α) (x : Option α × Bank) : Prop where
  newcomer : awaits o = none → x = (some answer, b)
  given : awaits o = some a → b.Served o a → x = (some answer, b.release a)
  queued : awaits o = some a → ¬ b.Served o a → x = (none, b)

/-- **An account that is gone.** Nobody sees it, no row names it, and nobody has its row. Whatever
is done with it fails and does nothing, but for the pin that a transfer to it leaves on its
source. -/
structure Gone (b : Bank) (awaits : Owner → Option Int) (a : Int) : Prop where
  unseen : b.getAccount a = none
  unlisted : ∀ p, ∀ x ∈ b.listAccounts p, x.id ≠ a
  unnamed : ¬ b.Names a
  unheld : ∀ o, a ∉ b.heldBy o ∧ a ∉ (b.work o).pinned
  /-- The lock of the row, if there is one still, is on its way through those who waited for it. -/
  passing : ∀ {o}, b.Served o a → awaits o = some a
  addBalance : ∀ o delta, b.TurnsAway awaits o a (.error (.accountNotFound a))
    (b.addBalance o a delta)
  updateAccount : ∀ o balance, b.TurnsAway awaits o a (.ok none) (b.updateAccount o a balance)
  deleteAccount : ∀ o, b.TurnsAway awaits o a (.ok false) (b.deleteAccount o a)
  createEntry : ∀ o n, n.account = a →
    b.createEntry o n = (.error (.constraintViolation (.missingAccount .entry a)), b)
  createTransfer : ∀ o n, n.source = a ∨ n.target = a → b.createTransfer o n =
    if b.accounts.contains n.source then
      (.error (.constraintViolation (.missingAccount .transfer a)), b.addPin o n.source)
    else (.error (.constraintViolation (.missingAccount .transfer n.source)), b)

/-! ## A row that is not there -/

/-- Asking for a row that is not there. -/
theorem Sound.turnsAway_acquire (h : b.Sound awaits) (ha : b.accounts.contains a = false)
    {α : Type} {answer : α} {x : Option α × Bank}
    (hmissing : ∀ b', b.acquire o a = (.missing, b') → x = (some answer, b'))
    (hwaiting : ∀ b', b.acquire o a = (.waiting, b') → x = (none, b')) :
    b.TurnsAway awaits o a answer x := by
  rcases b.acquire_cases o a with ⟨-, hc, -⟩ | ⟨hl, -, heq⟩ | ⟨l, hl, hcase⟩
  · rw [hc] at ha
    cases ha
  · -- There is no lock, so nobody waits for it.
    have hfree : awaits o ≠ some a := fun hasks => by
      obtain ⟨-, l, hl', -⟩ := h.locking.asked hasks
      rw [hl] at hl'
      cases hl'
    exact ⟨fun _ => hmissing _ heq, fun hasks => absurd hasks hfree,
      fun hasks => absurd hasks hfree⟩
  · have hserved : b.Served o a ↔ l.holder = o :=
      ⟨fun ⟨m, hm, hmo⟩ => Option.some.inj (hl.symm.trans hm) ▸ hmo, fun hh => ⟨l, hl, hh⟩⟩
    rcases hcase with ⟨-, hc, -⟩ | ⟨hh, -, heq⟩ | ⟨hh, hw, heq⟩ | ⟨-, -, hc, -⟩ | ⟨hh, hw, -, heq⟩
    · rw [hc] at ha
      cases ha
    · refine ⟨fun hidle => ?_, fun _ _ => hmissing _ heq, fun _ hn => absurd (hserved.2 hh) hn⟩
      -- Nobody has locked a row that is not there, so whoever has its lock waited for it.
      have hnot : a ∉ b.heldBy l.holder := fun hmem => by
        obtain ⟨g, hg, rfl⟩ := List.mem_map.1 hmem
        obtain ⟨r, hr, -⟩ := h.settled.prior hg
        rw [Table.contains_iff.2 ⟨r, hr⟩] at ha
        cases ha
      have hasked := (h.locking.holder hl).resolve_left hnot
      rw [hh, hidle] at hasked
      cases hasked
    · refine ⟨fun hidle => ?_, fun _ hs => absurd (hserved.1 hs) hh, fun _ _ => hwaiting _ heq⟩
      have hasked := h.locking.waiter hl hw
      rw [hidle] at hasked
      cases hasked
    · rw [hc] at ha
      cases ha
    · have hfree : awaits o ≠ some a := fun hasks => by
        obtain ⟨-, m, hm, hasked⟩ := h.locking.asked hasks
        obtain rfl := Option.some.inj (hl.symm.trans hm)
        exact hasked.elim hh hw
      exact ⟨fun _ => hmissing _ heq, fun hasks => absurd hasks hfree,
        fun hasks => absurd hasks hfree⟩

/-- **An account without a row is gone.** -/
theorem Sound.gone (h : b.Sound awaits) (ha : b.accounts.get? a = none) : b.Gone awaits a := by
  have hmissing : b.accounts.contains a = false := Table.contains_eq_false_iff.2 ha
  have hno : ¬ b.accounts.contains a = true := by simp [hmissing]
  have hunheld : ∀ o, a ∉ b.heldBy o := fun o hmem => by
    obtain ⟨g, hg, rfl⟩ := List.mem_map.1 hmem
    obtain ⟨r, hr, -⟩ := h.settled.prior hg
    rw [ha] at hr
    cases hr
  have hunpinned : ∀ o, a ∉ (b.work o).pinned := fun o hmem =>
    hno (h.anchored.pinned (pinned_of_work hmem))
  exact
    { unseen := by
        unfold getAccount
        rw [ha]
        rfl
      unlisted := by
        rintro p x hx rfl
        have hall : x ∈ b.allAccounts := List.mem_of_mem_drop (List.mem_of_mem_take hx)
        obtain ⟨r, hr, rfl⟩ := List.mem_map.1 hall
        obtain ⟨k, hk⟩ := Table.mem_toList_iff.1 hr
        rw [(h.settled.stamped hk).1, hk] at ha
        cases ha
      unnamed := by
        rw [names_iff]
        rintro ((⟨k, e, hk, rfl⟩ | ⟨k, t, hk, rfl | rfl⟩) | ⟨x, hx, hnamed⟩)
        · exact hno (h.anchored.entry hk)
        · exact hno (h.anchored.transfer hk).1
        · exact hno (h.anchored.transfer hk).2
        · rw [← (h.anchored.work_of_mem hx).2] at hnamed
          exact hunpinned x.1 (h.anchored.named_subset x.1 hnamed)
      unheld := fun o => ⟨hunheld o, hunpinned o⟩
      passing := by
        rintro o ⟨l, hl, rfl⟩
        exact (h.locking.holder hl).resolve_left (hunheld _)
      addBalance := by
        intro o delta
        refine h.turnsAway_acquire hmissing (fun b' heq => ?_) fun b' heq => ?_ <;>
          · unfold Bank.addBalance
            rw [if_neg fun e => hunheld o (Work.holds_iff.1 e), heq]
      updateAccount := by
        intro o balance
        refine h.turnsAway_acquire hmissing (fun b' heq => ?_) fun b' heq => ?_ <;>
          · unfold Bank.updateAccount
            rw [heq]
      deleteAccount := by
        intro o
        refine h.turnsAway_acquire hmissing (fun b' heq => ?_) fun b' heq => ?_ <;>
          · unfold Bank.deleteAccount
            rw [heq]
      createEntry := by
        rintro o n rfl
        rcases b.createEntry_cases o n with ⟨-, heq⟩ | ⟨hc, -⟩
        · exact heq
        · exact absurd hc hno
      createTransfer := by
        intro o n hn
        rcases b.createTransfer_cases o n with ⟨hs, heq⟩ | ⟨hs, -, heq⟩ | ⟨hs, ht, -⟩
        · rw [if_neg hs, heq]
        · have htarget : n.target = a := hn.resolve_left fun e => hno (e ▸ hs)
          rw [if_pos hs, heq, htarget]
        · exact absurd (hn.elim (fun e => e ▸ hs) fun e => e ▸ ht) hno }

/-- The answer to a deletion says that the account was there and is there no more. -/
theorem Sound.missing_of_deleted (h : b.Sound awaits) (ho : b.heldBy o = [])
    (ha : awaits o = none ∨ awaits o = some a)
    (hdeleted : (b.deleteAccount o a).1 = some (.ok true)) :
    b.accounts.contains a = true ∧ (b.deleteAccount o a).2.accounts.get? a = none ∧
      (b.deleteAccount o a).2.nextAccount = b.nextAccount := by
  rcases h.deleteAccount_cases ho ha with
    ⟨locks, ⟨heq, -⟩ | ⟨answer, heq, hanswer, -⟩ | ⟨hc, -, -, heq, -⟩⟩
  · rw [heq] at hdeleted
    cases hdeleted
  · rw [heq] at hdeleted
    obtain rfl := Option.some.inj hdeleted
    rcases hanswer with ⟨hfalse, -⟩ | ⟨⟨e, herror⟩, -⟩
    · cases hfalse
    · cases herror
  · rw [heq]
    exact ⟨hc, by rw [Table.get?_erase, if_pos rfl], rfl⟩

end Bank

/-! ## Move by move -/

namespace Hall

variable {h : Hall} {m : Move} {a : Int}

/-- A move deletes an account. -/
def Deletes (h : Hall) (m : Move) (a : Int) : Prop :=
  ∃ number, m = .deleteAccount number a ∧ h.MayState number a ∧
    (h.bank.deleteAccount (.call number) a).1 = some (.ok true)

/-- An account that is deleted was there, and is there no more. -/
theorem Sound.missing_of_deletes (h₀ : h.Sound) (hm : h.Deletes m a) :
    h.bank.accounts.contains a = true ∧ (h.after m).bank.accounts.get? a = none ∧
      a < (h.after m).bank.nextAccount := by
  obtain ⟨number, rfl, hmay, hdeleted⟩ := hm
  obtain ⟨hc, hmissing, hnext⟩ := h₀.bank.missing_of_deleted
    (Bank.heldBy_of_not_isOpen hmay.1) hmay.2 hdeleted
  rw [after_deleteAccount hmay]
  exact ⟨hc, hmissing, (h₀.fresh.account hc).1.trans_eq hnext.symm⟩

/-- **No account is opened under a number that was given before.** -/
theorem Sound.missing_afterAll (h₀ : h.Sound) (ha : h.bank.accounts.get? a = none)
    (hgiven : a < h.bank.nextAccount) (ms : List Move) :
    (h.afterAll ms).bank.accounts.get? a = none := by
  obtain ⟨hledger, hallowed, -⟩ := h₀.brings_all ms
  have hdrawn := (h₀.draws_all ms).accounts
  rw [trace_accountsMade] at hdrawn
  cases hr : (h.afterAll ms).bank.accounts.get? a with
  | none => rfl
  | some r =>
      have hrow : (h.afterAll ms).bank.ledger.accounts.get? a = some r.committed := by
        rw [Bank.get?_ledger, hr, Option.map_some]
      rw [hledger] at hrow
      rcases hallowed.account hrow with ⟨x, hx, -⟩ | ⟨x, hx, hsame⟩
      · rw [Bank.get?_ledger, ha] at hx
        cases hx
      · -- The account would have been opened meanwhile, under a number that is not less.
        have hnext := (hdrawn.between _ (List.mem_map_of_mem hx)).1
        have hid : x.identity.id = r.committed.identity.id := congrArg Account.id hsame.symm
        have hstamp : r.committed.id = a := ((h₀.afterAll ms).bank.settled.stamped hr).1
        have hle : h.bank.nextAccount ≤ a := hnext.trans_eq (hid.trans hstamp)
        omega

end Hall

/-! ## At a desk -/

/-- What a call is told that asks for the row of an account that is gone. A transfer has pinned its
accounts, so that none of them can be gone. -/
def Request.dismissal? : Request → Option Reply
  | .addBalance _ account _ => some (.failed (.accountNotFound account))
  | .updateAccount _ _ => some (.done .nothing)
  | .deleteAccount _ => some (.done (.flag false))
  | .transfer _ => none

namespace Desk

variable {nonNegative : Bool} {spent : Spent} {d : Desk} {e : Event} {n : Nat} {r : Request}
  {a : Int}

/-- An event deletes an account: the call to delete it is answered with success. -/
def Deletes (d : Desk) (e : Event) (a : Int) : Prop :=
  d.reply? e = some (.done (.flag true)) ∧ (e = .command (.deleteAccount a) ∨
    ∃ n, e = .poll n ∧ (n, .deleteAccount a) ∈ d.pending)

theorem deleted_of_reply
    (hreply : (d.attempt n (.deleteAccount a)).1 = some (.done (.flag true))) :
    (d.bank.deleteAccount (.call n) a).1 = some (.ok true) ∧
      (d.attempt n (.deleteAccount a)).2.bank = (d.bank.deleteAccount (.call n) a).2 := by
  rw [attempt_reply] at hreply
  rw [attempt_bank]
  simp only [Request.proceed] at hreply ⊢
  generalize d.bank.deleteAccount (.call n) a = x at hreply ⊢
  obtain ⟨_ | _ | flag, bank⟩ := x
  · cases hreply
  · cases hreply
  · cases hreply
    simp

/-- An event that deletes an account is the call to delete it, new or pending. -/
theorem Sound.deletes_cases (h : d.Sound spent) (he : d.Deletes e a) :
    ∃ n, d.bank.CanProceed spent d.awaits n (.deleteAccount a) ∧
      (d.bank.deleteAccount (.call n) a).1 = some (.ok true) ∧
      (d.after e).bank = (d.bank.deleteAccount (.call n) a).2 := by
  obtain ⟨hreply, rfl | ⟨n, rfl, hr⟩⟩ := he
  · have hattempt := (d.reply?_call (.deleteAccount a)).symm.trans hreply
    obtain ⟨hdeleted, hbank⟩ := deleted_of_reply hattempt
    refine ⟨d.next, ⟨h.closed_of_new, .inl h.awaits_next⟩, hdeleted, ?_⟩
    show (d.call (.deleteAccount a)).2.bank = _
    rw [← hbank, call_desk]
    rfl
  · have hpoll := poll_of_mem h.distinct hr
    have hattempt : (d.attempt n (.deleteAccount a)).1 = some (.done (.flag true)) := by
      rw [← hpoll]
      exact hreply
    obtain ⟨hdeleted, hbank⟩ := deleted_of_reply hattempt
    refine ⟨n, h.canProceed hr, hdeleted, ?_⟩
    rw [← hbank, ← hpoll]
    rfl

/-- An account that is deleted was there, and is there no more. -/
theorem Sound.missing_of_deletes (h : d.Sound spent) (he : d.Deletes e a) :
    d.bank.accounts.contains a = true ∧ (d.after e).bank.usedUp.account a := by
  obtain ⟨n, hcan, hdeleted, hbank⟩ := h.deletes_cases he
  obtain ⟨hc, hmissing, hnext⟩ := h.bank.missing_of_deleted
    (Bank.heldBy_of_not_isOpen hcan.1) hcan.2 hdeleted
  rw [hbank]
  exact ⟨hc, (h.fresh.account hc).1.trans_eq hnext.symm, hmissing⟩

/-- What is pending under a number, if it is no transfer, is pending as it was. -/
theorem Sound.pending_afterAll (h : d.Sound spent) (hr : (n, r) ∈ d.pending)
    (hrun : ∀ run, r ≠ .transfer run) (es : List Event) {s : Request}
    (hs : (n, s) ∈ (d.afterAll es).pending) : s = r := by
  refine pending_of_old (Q := fun s => s = r) ?_ (h.below hr) (fun hs => h.distinct.eq hs hr) es hs
  rintro _ b rfl
  exact Request.proceed_of_single hrun

/-- No transfer waits for an account that is gone. -/
theorem Sound.not_transfer_of_gone (h : d.Sound spent) (hgone : d.bank.Gone d.awaits a)
    (hr : (n, r) ∈ d.pending) (ha : r.awaits? = some a) : ∀ run, r ≠ .transfer run := by
  rintro run rfl
  obtain ⟨hcarries, -⟩ := h.parked hr
  rw [Request.awaits?_transfer] at ha
  obtain ⟨row, hrow⟩ := Table.contains_iff.1 (hcarries.awaited_exists h.bank.anchored ha)
  have hseen := hgone.unseen
  unfold Bank.getAccount at hseen
  rw [hrow] at hseen
  cases hseen

/-- What a call replies that waited for an account that is gone. -/
theorem Sound.dismissed (h : d.Sound spent) (hgone : d.bank.Gone d.awaits a)
    (hr : (n, r) ∈ d.pending) (ha : r.awaits? = some a) {reply : Reply}
    (hreply : (d.poll n).1 = some reply) : r.dismissal? = some reply := by
  have hawaits := (awaits_of_mem h.distinct hr).trans ha
  -- It has been given the lock, for otherwise it would go on waiting.
  have hserved : d.bank.Served (r.owner n) a := by
    by_contra hn
    have hsilent := h.poll_of_not_given hr fun ⟨k, hk, hs⟩ =>
      hn (Option.some.inj (hawaits.symm.trans hk) ▸ hs)
    rw [hsilent] at hreply
    cases hreply
  have hpoll : (r.proceed n d.bank).1 = some reply := by
    rwa [← attempt_reply, ← poll_of_mem h.distinct hr]
  cases r with
  | addBalance unit account delta =>
      obtain rfl := Option.some.inj ha
      have hanswer := (hgone.addBalance (.unit unit) delta).given hawaits hserved
      simp only [Request.proceed, hanswer] at hpoll
      exact hpoll
  | updateAccount account balance =>
      obtain rfl := Option.some.inj ha
      have hanswer := (hgone.updateAccount (.call n) balance).given hawaits hserved
      simp only [Request.proceed, hanswer] at hpoll
      exact hpoll
  | deleteAccount account =>
      obtain rfl := Option.some.inj ha
      have hanswer := (hgone.deleteAccount (.call n)).given hawaits hserved
      simp only [Request.proceed, hanswer] at hpoll
      exact hpoll
  | transfer run => exact absurd rfl (h.not_transfer_of_gone hgone hr ha run)

namespace Reachable

/-- **A deleted account is gone from then on.** -/
theorem gone_afterAll (h : d.Reachable nonNegative) (he : d.Deletes e a) (es : List Event) :
    ((d.after e).afterAll es).bank.Gone ((d.after e).afterAll es).awaits a := by
  have hlater := (h.after e).sound_afterAll es
  have hused := (h.sound.missing_of_deletes he).2
  refine hlater.bank.gone ?_
  cases hr : ((d.after e).afterAll es).bank.accounts.get? a with
  | none => rfl
  | some row => exact absurd hused (hlater.fresh.account (Table.contains_iff.2 ⟨row, hr⟩)).2

/-- **Whoever still waits for a deleted account is told so** when the pending calls are asked. -/
theorem dismissed_settle (h : d.Reachable nonNegative)
    (hgone : ∀ es, (d.afterAll es).bank.Gone (d.afterAll es).awaits a)
    (hr : (n, r) ∈ d.pending) (ha : r.awaits? = some a) :
    ∃ reply, r.dismissal? = some reply ∧ (n, reply) ∈ d.settle.1 := by
  have hrun := h.sound.not_transfer_of_gone (hgone []) hr ha
  rcases pending_settleFor (d.pending.length + 1) hr with ⟨reply, hreply⟩ | ⟨s, hs⟩
  · refine ⟨reply, ?_, hreply⟩
    obtain ⟨ns, hns⟩ := reply_of_settleFor hreply
    have hlater := (h.afterAll (ns.map .poll)).sound
    rcases ((d.afterAll (ns.map .poll)).poll_cases n) with ⟨-, heq⟩ | ⟨s, hs, -, -⟩
    · rw [heq] at hns
      cases hns
    · obtain rfl := h.sound.pending_afterAll hr hrun _ hs
      exact hlater.dismissed (hgone _) hs ha hns
  · -- Nobody has locked the row, so nobody can be left waiting for it.
    obtain ⟨ns, hns⟩ := d.settle_eq_afterAll
    replace hs : (n, s) ∈ d.settle.2.pending := hs
    have hsame : s = r := by
      rw [hns] at hs
      exact h.sound.pending_afterAll hr hrun _ hs
    have hawaits := (awaits_of_mem h.settle.sound.distinct hs).trans (hsame ▸ ha)
    obtain ⟨p, -, hheld⟩ := h.settle.sound.waitsFor h.stuck_settle hawaits
    rw [hns] at hheld
    exact absurd hheld ((hgone _).unheld p).1

end Reachable

end Desk

/-! ## The main result -/

/-- **A deleted account is gone for good:** call by call, with anything in flight, and at every
desk. From the deletion on it is never seen, changed, deleted or named again, and whatever asks for
it fails. Calls that waited for its row when it was deleted are told so when they are asked. -/
theorem Hall.gone_run (nonNegative : Bool) :
    (∀ ms m ms' a, ∀ h h' : Hall, h = (opening nonNegative).afterAll ms → h.Deletes m a →
      h' = (h.after m).afterAll ms' →
      h'.bank.Gone h'.awaits a ∧ ∀ m', ¬ h'.Deletes m' a) ∧
    ∀ es e es' a, ∀ d d' : Desk, d = (Desk.opening nonNegative).afterAll es → d.Deletes e a →
      d' = (d.after e).afterAll es' →
      d'.bank.Gone d'.awaits a ∧ (∀ e', ¬ d'.Deletes e' a) ∧
      ∀ n r, (n, r) ∈ d'.pending → r.awaits? = some a →
        ∃ reply, r.dismissal? = some reply ∧ (n, reply) ∈ d'.settle.1 := by
  constructor
  · rintro ms m ms' a h h' rfl hm rfl
    have h₀ := sound_run nonNegative ms
    obtain ⟨-, hmissing, hgiven⟩ := h₀.missing_of_deletes hm
    have hlater := (h₀.after m).afterAll ms'
    have hgone := (h₀.after m).missing_afterAll hmissing hgiven ms'
    refine ⟨hlater.bank.gone hgone, fun m' hm' => ?_⟩
    have hthere := (hlater.missing_of_deletes hm').1
    rw [Table.contains_eq_false_iff.2 hgone] at hthere
    cases hthere
  · rintro es e es' a d d' rfl he rfl
    have hreachable : Desk.Reachable nonNegative ((Desk.opening nonNegative).afterAll es) :=
      Desk.Reachable.opening.afterAll es
    have hlater := (hreachable.after e).afterAll es'
    have hgone := hreachable.gone_afterAll he
    refine ⟨hgone es', fun e' he' => ?_, fun n r hr ha => ?_⟩
    · have hseen := (hgone es').unseen
      obtain ⟨row, hrow⟩ := Table.contains_iff.1 (hlater.sound.missing_of_deletes he').1
      unfold Bank.getAccount at hseen
      rw [hrow] at hseen
      cases hseen
    · refine hlater.dismissed_settle (fun es'' => ?_) hr ha
      rw [← Desk.afterAll_append]
      exact hgone (es' ++ es'')

/-- A unit of work has locked the row of account 1. Two calls to delete the account, one to change
it and another unit of work wait for the row when it is rolled back. -/
theorem Hall.gone_run_queued :
    let moves : List Move := [.createAccount ⟨"a", 100, .usd⟩, .call (.unit "u") .begin,
      .call (.unit "v") .begin, .call (.unit "u") (.addBalance 1 5), .deleteAccount 5 1,
      .updateAccount 6 1 9, .call (.unit "v") (.addBalance 1 3), .call (.unit "u") .rollback]
    let events : List Event := [.command (.createAccount ⟨"a", 100, .usd⟩), .command (.begin "u"),
      .command (.begin "v"), .command (.onUnit "u" (.addBalance 1 5)),
      .command (.deleteAccount 1), .command (.updateAccount 1 9),
      .command (.onUnit "v" (.addBalance 1 3)), .command (.deleteAccount 1),
      .command (.onUnit "u" .rollback)]
    let h := (opening true).afterAll moves
    let h' := (h.after (.deleteAccount 5 1)).afterAll [.updateAccount 6 1 9]
    let d := (Desk.opening true).afterAll events
    let d' := (d.after (.poll 4)).afterAll [.poll 6, .command (.createAccount ⟨"b", 7, .usd⟩)]
    (h.Deletes (.deleteAccount 5 1) 1 ∧
      h'.bank.Gone h'.awaits 1 ∧ ∀ m', ¬ h'.Deletes m' 1) ∧
    d.Deletes (.poll 4) 1 ∧ d'.pending.map Prod.fst = [5, 6, 7] ∧
      d'.bank.Gone d'.awaits 1 ∧ (∀ e', ¬ d'.Deletes e' 1) ∧
      ∀ n r, (n, r) ∈ d'.pending → r.awaits? = some 1 →
        ∃ reply, r.dismissal? = some reply ∧ (n, reply) ∈ d'.settle.1 := by
  intro moves events h h' d d'
  have hmove : h.Deletes (.deleteAccount 5 1) 1 :=
    ⟨5, rfl, by decide +kernel, by decide +kernel⟩
  have hevent : d.Deletes (.poll 4) 1 :=
    ⟨by decide +kernel, .inr ⟨4, rfl, by decide +kernel⟩⟩
  exact ⟨⟨hmove, (gone_run true).1 moves _ [.updateAccount 6 1 9] 1 h h' rfl hmove rfl⟩,
    hevent, by decide +kernel, (gone_run true).2 events _ _ 1 d d' rfl hevent rfl⟩

/-- **A transfer to a deleted account does something although it fails:** it keeps its source, which
no row names, from being deleted as well. -/
theorem Hall.gone_target_leaves_pin :
    let d₀ := (Desk.opening true).afterAll [.command (.createAccount ⟨"a", 100, .usd⟩),
      .command (.createAccount ⟨"b", 0, .usd⟩)]
    let d := (d₀.after (.command (.deleteAccount 2))).after (.command (.begin "u"))
    let transfer := Event.command (.onUnit "u" (.createTransfer ⟨1, 2, 5⟩))
    d₀.Deletes (.command (.deleteAccount 2)) 2 ∧
      d.reply? transfer = some (.failed (.constraintViolation (.missingAccount .transfer 2))) ∧
      (d.after transfer).bank ≠ d.bank ∧ ¬ (d.after transfer).bank.Names 1 ∧
      d.reply? (.command (.deleteAccount 1)) = some (.done (.flag true)) ∧
      (d.after transfer).reply? (.command (.deleteAccount 1)) =
        some (.failed (.constraintViolation (.accountReferenced 1))) := by
  intro d₀ d transfer
  exact ⟨⟨by decide +kernel, .inl rfl⟩, by decide +kernel, by decide +kernel, by decide +kernel,
    by decide +kernel, by decide +kernel⟩

end DoubleEntry
