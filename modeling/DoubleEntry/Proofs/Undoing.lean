import DoubleEntry.Proofs.Erasure
import DoubleEntry.Proofs.References
set_option autoImplicit false

/-! # Undoing a unit of work

Whatever a unit of work did, and however much of it failed, giving the unit up leaves the bank as it
was before it was opened, apart from the numbers that were drawn (`Bank.Worked.rollback`). A
rollback in order comes to the same as a drop. What a commit or a rollback leaves to be dropped is
empty (`Bank.published`, `Bank.restored`), so that nothing is given back or taken off twice.
-/

namespace DoubleEntry

open Function (update update_self update_of_ne update_eq_self)

/-- The calls that neither open nor end a unit of work. -/
def Call.Works : Call → Prop
  | .createTransfer _ | .createEntry _ | .addBalance _ _ => True
  | .begin | .commit | .rollback => False

/-- What can be done in a unit of work without ending it. -/
def UnitAction.Works : UnitAction → Prop
  | .createTransfer _ | .createEntry _ | .addBalance _ _ => True
  | .commit | .rollback | .drop => False

instance (c : Call) : Decidable c.Works := by
  unfold Call.Works
  cases c <;> infer_instance

instance (x : UnitAction) : Decidable x.Works := by
  unfold UnitAction.Works
  cases x <;> infer_instance

namespace Bank

/-- The bank with the numbers of entries and transfers used that another bank has used. -/
def withNumbersOf (b b' : Bank) : Bank :=
  { b with nextEntry := b'.nextEntry, nextTransfer := b'.nextTransfer }

/-- A rollback before what is left of the unit of work is dropped. -/
def restored (b : Bank) (o : Owner) : Bank :=
  (((b.restore (b.work o).held).releaseAll (b.work o).held).unpinAll (b.work o).pinned).drain o

/-- A commit before what is left of the unit of work is dropped. -/
def published (b : Bank) (o : Owner) : Bank :=
  ((((b.insertStaged (b.work o)).publish (b.work o).held).unpinAll (b.work o).pinned).releaseAll
    (b.work o).held).drain o

/-- What is done in a unit of work that waits for nothing. -/
structure Worked (b₀ : Bank) (awaits : Owner → Option Int) (o : Owner) (b : Bank) : Prop where
  sound : b.Sound awaits
  within : b₀.Within o b
  isOpen : b.IsOpen o

variable {b₀ b : Bank} {awaits : Owner → Option Int} {o : Owner} {c : Call}

namespace Worked

theorem begin (h : b.Sound awaits) (ho : ¬ b.IsOpen o) : b.Worked awaits o (b.begin o) where
  sound := h.begin ho
  within := within_begin b o
  isOpen := isOpen_of_work? (work?_begin_self ho)

theorem trans {b' : Bank} (h : b₀.Worked awaits o b) (h' : b.Worked awaits o b') :
    b₀.Worked awaits o b' :=
  ⟨h'.sound, h.within.trans h'.within, h'.isOpen⟩

/-- **A call that is answered** leaves the rest of the bank alone, whether it fails or not. -/
theorem perform (h : b.Sound awaits) (ho : b.IsOpen o) (ha : awaits o = none) (hc : c.Works)
    (hsome : ((store o).perform c b).1.isSome) :
    b.Worked awaits o ((store o).perform c b).2 := by
  cases c with
  | createTransfer n =>
      obtain ⟨hs, hw, hopen⟩ := h.createTransfer ho n
      exact ⟨hs, hw, hopen⟩
  | createEntry n =>
      obtain ⟨hs, hw, hopen⟩ := h.createEntry ho n
      exact ⟨hs, hw, hopen⟩
  | addBalance account delta =>
      obtain ⟨hw, hopen, hs⟩ := h.addBalance ho (.inl ha) delta
      replace hsome : (b.addBalance o account delta).1.isSome := hsome
      rw [Option.isNone_eq_false_iff.2 hsome, if_neg Bool.false_ne_true] at hs
      exact ⟨by rwa [← ha, update_eq_self] at hs, hw, hopen⟩
  | begin => exact hc.elim
  | commit => exact hc.elim
  | rollback => exact hc.elim

/-- **Giving up a unit of work undoes it.** Locks, working copies and pins are those from before,
everyone else's included, and so is all that is committed. -/
theorem rollback (h : b₀.Worked awaits o b) (h₀ : b₀.Sound awaits) (ho : ¬ b₀.IsOpen o)
    (ha : awaits o = none) : b.rollback o = b₀.withNumbersOf b := by
  have hwithin := h.within.trans h.sound.within_rollback
  have hback := hwithin.eq_without (h.sound.rollback ha) (not_isOpen_rollback h.sound) ha
  rw [h₀.without_eq ho ha] at hback
  have hnumbers := rollback_eq (h.sound.locking.once o)
  rw [hback]
  unfold withNumbersOf
  rw [hnumbers]

end Worked

/-- **What a rollback leaves to be dropped is empty.** -/
theorem Sound.rollback_restored (h : b.Sound awaits) (ho : b.IsOpen o) :
    (b.restored o).rollback o = (b.restored o).closeWork o ∧
      (b.restored o).rollback o = b.rollback o := by
  have hdropped := h.referential.rolledBack (work?_of_isOpen ho)
  refine ⟨hdropped.trans ?_, hdropped⟩
  unfold Bank.rollback
  rw [work?_of_isOpen ho]
  unfold restored drain closeWork
  dsimp only
  congr 1
  exact (filter_modifyWork _ o _).symm

/-- **What a commit leaves to be dropped is empty.** -/
theorem Sound.rollback_published (h : b.Sound awaits) (ho : b.IsOpen o) :
    (b.published o).rollback o = (b.published o).closeWork o ∧
      (b.published o).rollback o = b.commit o := by
  have hdropped := h.referential.committed (work?_of_isOpen ho)
  refine ⟨hdropped.trans ?_, hdropped⟩
  unfold Bank.commit
  rw [work?_of_isOpen ho]
  unfold published drain closeWork
  dsimp only
  congr 1
  exact (filter_modifyWork _ o _).symm

end Bank

/-! ## Call by call -/

namespace Hall

variable {h g : Hall} {o : Owner} {c : Call} {cs : List Call}

/-- **Everything that was done in a unit of work can be undone.** The first hall is the one in which
the unit of work was opened, the second the one after the calls. -/
structure Undoes (h : Hall) (o : Owner) (cs : List Call) (g : Hall) : Prop where
  /-- All calls were answered, if only with a failure. -/
  made : (g.log o).map Exchange.call = .begin :: cs
  rollback : g.after (.call o .rollback) = { h with bank := h.bank.withNumbersOf g.bank }
  drop : g.after (.drop o) = { h with bank := h.bank.withNumbersOf g.bank }
  /-- The drop that follows a rollback takes the empty unit of work away and nothing else. -/
  restored : (g.bank.restored o).rollback o = (g.bank.restored o).closeWork o ∧
    (g.bank.restored o).rollback o = g.bank.rollback o
  /-- So does the drop that follows a commit. -/
  published : (g.bank.published o).rollback o = (g.bank.published o).closeWork o ∧
    (g.bank.published o).rollback o = g.bank.commit o
  rolledBack : (g.after (.call o .rollback)).after (.drop o) = g.after (.call o .rollback)
  committed : (g.after (.call o .commit)).after (.drop o) = g.after (.call o .commit)

/-- What an owner that waits for nothing does in its unit of work. -/
structure Working (h : Hall) (o : Owner) (cs : List Call) (g : Hall) : Prop where
  worked : h.bank.Worked h.awaits o g.bank
  awaits : g.awaits = h.awaits
  others : update g.log o [] = update h.log o []
  made : (g.log o).map Exchange.call = (h.log o).map Exchange.call ++ cs

theorem Working.trans {g' : Hall} {cs' : List Call} (hg : h.Working o cs g)
    (hg' : g.Working o cs' g') : h.Working o (cs ++ cs') g' where
  worked := hg.worked.trans (hg.awaits ▸ hg'.worked)
  awaits := hg'.awaits.trans hg.awaits
  others := hg'.others.trans hg.others
  made := by rw [hg'.made, hg.made, List.append_assoc]

/-- A unit of work is opened. -/
theorem Sound.working_begin (h₀ : h.Sound) (ho : ¬ h.bank.IsOpen o) (ha : h.awaits o = none) :
    h.Working o [.begin] (h.after (.call o .begin)) := by
  have hworked := Bank.Worked.begin h₀.bank ho
  rw [after_call ⟨iff_of_false ho (by simp), .inl ha⟩]
  refine ⟨hworked, ?_, Function.update_idem _ _ _, ?_⟩
  · show update h.awaits o none = h.awaits
    rw [← ha, update_eq_self]
  · rw [log_call_self h o .begin hworked.isOpen, List.map_append]
    rfl

/-- **A call that does not have to wait** is answered. -/
theorem Sound.working_call (h₀ : h.Sound) (ho : h.bank.IsOpen o) (ha : h.awaits o = none)
    (hc : c.Works) (hanswered : (h.after (.call o c)).awaits o = none) :
    h.Working o [c] (h.after (.call o c)) := by
  have hne : c ≠ .begin := by
    rintro rfl
    exact hc
  rw [after_call ⟨iff_of_true ho hne, .inl ha⟩] at hanswered ⊢
  have hsome : ((Bank.store o).perform c h.bank).1.isSome := by
    rw [awaits_call, update_self] at hanswered
    cases hx : ((Bank.store o).perform c h.bank).1 with
    | some answer => rfl
    | none =>
        -- Only an adjustment can be left without an answer, and then it awaits a row.
        rw [hx] at hanswered
        cases c with
        | addBalance account delta => cases hanswered
        | _ => cases hx
  have hworked := Bank.Worked.perform h₀.bank ho ha hc hsome
  refine ⟨hworked, ?_, Function.update_idem _ _ _, ?_⟩
  · rw [awaits_call, Option.isNone_eq_false_iff.2 hsome, if_neg Bool.false_ne_true, ← ha,
      update_eq_self]
  · obtain ⟨answer, hx⟩ := Option.isSome_iff_exists.1 hsome
    rw [log_call_self h o c hworked.isOpen, List.map_append, hx]
    rfl

/-- **As many calls as there are,** none of which has to wait. -/
theorem Sound.working_calls (h₀ : h.Sound) (ho : h.bank.IsOpen o) (hcs : ∀ c ∈ cs, c.Works)
    (ha : ∀ k ≤ cs.length, (h.afterAll ((cs.take k).map (.call o))).awaits o = none) :
    h.Working o cs (h.afterAll (cs.map (.call o))) := by
  induction cs generalizing h with
  | nil => exact ⟨⟨h₀.bank, .refl o h.bank, ho⟩, rfl, rfl, (List.append_nil _).symm⟩
  | cons c cs ih =>
      obtain ⟨hc, hrest⟩ := List.forall_mem_cons.1 hcs
      have hfirst := h₀.working_call ho (ha 0 (Nat.zero_le _)) hc (ha 1 (Nat.succ_le_succ
        (Nat.zero_le _)))
      exact hfirst.trans (ih (h₀.after (.call o c)) hfirst.worked.isOpen hrest fun k hk =>
        ha (k + 1) (Nat.succ_le_succ hk))

/-- A drop does nothing to an owner that has nothing open and waits for nothing. -/
theorem Sound.drop_closed (h₀ : h.Sound) (ho : ¬ h.bank.IsOpen o) (ha : h.awaits o = none) :
    h.after (.drop o) = h := by
  show h.drop o = h
  unfold Hall.drop Hall.leave
  rw [ha]
  dsimp only
  rw [Bank.rollback_of_not_isOpen ho, ← h₀.closed ho, update_eq_self]

/-- **What was done in a unit of work is undone** by a rollback, and by a drop. -/
theorem Sound.undoes (h₀ : h.Sound) (ho : ¬ h.bank.IsOpen o) (ha : h.awaits o = none)
    (hg : g.Sound) (hw : h.Working o (.begin :: cs) g) : h.Undoes o cs g := by
  have hopen := hw.worked.isOpen
  have hidle : g.awaits o = none := by rw [hw.awaits, ha]
  have hback := hw.worked.rollback h₀.bank ho ha
  have hclosed := Bank.not_isOpen_rollback hg.bank (o := o)
  have hlog : update g.log o [] = h.log := by rw [hw.others, ← h₀.closed ho, update_eq_self]
  have hmade := hw.made
  rw [h₀.closed ho] at hmade
  have hrollback : g.after (.call o .rollback) =
      { h with bank := h.bank.withNumbersOf g.bank } := by
    rw [after_call ⟨iff_of_true hopen (by simp), .inl hidle⟩]
    show Hall.mk (g.bank.rollback o) (update g.awaits o none)
      (update g.log o (if (g.bank.rollback o).IsOpen o then _ else [])) = _
    rw [if_neg hclosed, hback, hlog, hw.awaits, ← ha, update_eq_self]
  have hdrop : g.after (.drop o) = { h with bank := h.bank.withNumbersOf g.bank } := by
    show g.drop o = _
    unfold Hall.drop Hall.leave
    rw [hidle]
    dsimp only
    rw [hback, hlog, hw.awaits]
  have hends : ∀ c, c ≠ .begin → c.row? = none →
      ¬ ((Bank.store o).perform c g.bank).2.IsOpen o →
      (g.after (.call o c)).after (.drop o) = g.after (.call o c) := by
    intro c hne hrow hgone
    refine (hg.after (.call o c)).drop_closed ?_ ?_ <;>
      rw [after_call ⟨iff_of_true hopen hne, .inl hidle⟩]
    · exact hgone
    · rw [awaits_call, update_self, hrow, ite_self]
  exact {
    made := hmade
    rollback := hrollback
    drop := hdrop
    restored := hg.bank.rollback_restored hopen
    published := hg.bank.rollback_published hopen
    rolledBack := hends .rollback (by simp) rfl hclosed
    committed := hends .commit (by simp) rfl (Bank.not_isOpen_commit hg.bank hopen) }

end Hall

/-! ## At a desk -/

namespace Desk

variable {spent : Spent} {nonNegative : Bool} {d g : Desk} {unit : String} {x : UnitAction}
  {xs : List UnitAction}

/-- Opening a unit of work under a name. -/
def opens (unit : String) : Event := .command (.begin unit)

/-- What is done in the unit of work with a name, one after the other. -/
def works (unit : String) (xs : List UnitAction) : List Event :=
  xs.map fun x => .command (.onUnit unit x)

/-- What a unit of work that waits for nothing does, and nothing else, seen from the desk. -/
structure Working (d : Desk) (unit : String) (count : Nat) (g : Desk) : Prop where
  worked : d.bank.Worked d.awaits (.unit unit) g.bank
  same : g = { d with bank := g.bank, next := d.next + count }

theorem Working.trans {g' : Desk} {m n : Nat} (h : d.Working unit m g) (h' : g.Working unit n g') :
    d.Working unit (m + n) g' where
  worked := by
    have hawaits : g.awaits = d.awaits := by
      rw [h.same]
      rfl
    exact h.worked.trans (hawaits ▸ h'.worked)
  same := by
    rw [h'.same, h.same]
    simp only [Nat.add_assoc]

theorem submit_onUnit (ho : d.bank.IsOpen (.unit unit)) (hidle : ¬ d.isBusy unit = true)
    (x : UnitAction) : d.submit (.onUnit unit x) = d.onUnit unit x := by
  unfold submit
  dsimp only
  rw [unavailable?_eq_none.2 ⟨ho, hidle⟩]

/-- An adjustment that has to wait makes its unit of work busy. -/
theorem isBusy_of_waits {account delta : Int}
    (hwaits : (d.bank.addBalance (.unit unit) account delta).1 = none) :
    (d.onUnit unit (.addBalance account delta)).2.isBusy unit = true := by
  have hproceed : (Request.addBalance unit account delta).proceed d.next d.bank =
      (none, .addBalance unit account delta,
        (d.bank.addBalance (.unit unit) account delta).2) :=
    Prod.ext (congrArg (Option.map (Reply.of Value.account)) hwaits) rfl
  show (d.call (.addBalance unit account delta)).2.isBusy unit = true
  rw [call_desk, attempt_eq, hproceed]
  dsimp only
  rw [park_eq]
  exact List.any_eq_true.2 ⟨_, mem_park.2 (.inl ⟨rfl, rfl⟩), by simp⟩

namespace Sound

theorem working_begin (h : d.Sound spent) (ho : ¬ d.bank.IsOpen (.unit unit)) :
    d.Working unit 1 (d.after (opens unit)) := by
  rcases d.submit_begin_cases unit with ⟨hopen, -⟩ | ⟨-, heq⟩
  · exact absurd hopen ho
  · unfold opens Desk.after
    dsimp only
    rw [heq]
    exact ⟨.begin h.bank ho, rfl⟩

/-- **An action that does not leave its unit of work busy** is answered. -/
theorem working_onUnit (h : d.Sound spent) (ho : d.bank.IsOpen (.unit unit))
    (hidle : ¬ d.isBusy unit = true) (hx : x.Works)
    (hanswered : ¬ (d.after (.command (.onUnit unit x))).isBusy unit = true) :
    d.Working unit 1 (d.after (.command (.onUnit unit x))) := by
  have hnone : d.awaits (.unit unit) = none := awaits_of_idle (idle_of_not_busy hidle)
  unfold Desk.after at hanswered ⊢
  dsimp only at hanswered ⊢
  rw [submit_onUnit ho hidle] at hanswered ⊢
  cases x with
  | createTransfer n =>
      exact ⟨Bank.Worked.perform (c := .createTransfer n) h.bank ho hnone trivial rfl, rfl⟩
  | createEntry n =>
      exact ⟨Bank.Worked.perform (c := .createEntry n) h.bank ho hnone trivial rfl, rfl⟩
  | addBalance account delta =>
      have hsome : (d.bank.addBalance (.unit unit) account delta).1.isSome := by
        by_contra hwaits
        exact hanswered (isBusy_of_waits (Option.not_isSome_iff_eq_none.1 hwaits))
      have hworked : d.bank.Worked d.awaits (.unit unit)
          (d.bank.addBalance (.unit unit) account delta).2 :=
        Bank.Worked.perform (c := .addBalance account delta) h.bank ho hnone trivial hsome
      obtain ⟨answer, hanswer⟩ := Option.isSome_iff_exists.1 hsome
      have hproceed : (Request.addBalance unit account delta).proceed d.next d.bank =
          (some (.of .account answer), .addBalance unit account delta,
            (d.bank.addBalance (.unit unit) account delta).2) :=
        Prod.ext (congrArg (Option.map (Reply.of Value.account)) hanswer) rfl
      have hmetrics : Request.record d.metrics (.of .account answer) = d.metrics := by
        cases answer <;> rfl
      have hcall := h.call_answered hproceed
      rw [hmetrics] at hcall
      show d.Working unit 1 (d.call _).2
      rw [hcall]
      exact ⟨hworked, rfl⟩
  | commit => exact hx.elim
  | rollback => exact hx.elim
  | drop => exact hx.elim

end Sound

/-- **As many actions as there are,** none of which has to wait. -/
theorem Reachable.working_works (hr : d.Reachable nonNegative) (ho : d.bank.IsOpen (.unit unit))
    (hxs : ∀ x ∈ xs, x.Works)
    (hidle : ∀ k ≤ xs.length, ¬ (d.afterAll (works unit (xs.take k))).isBusy unit = true) :
    d.Working unit xs.length (d.afterAll (works unit xs)) := by
  induction xs generalizing d with
  | nil => exact ⟨⟨hr.sound.bank, .refl _ _, ho⟩, rfl⟩
  | cons x xs ih =>
      obtain ⟨hx, hrest⟩ := List.forall_mem_cons.1 hxs
      have hfirst := hr.sound.working_onUnit ho (hidle 0 (Nat.zero_le _)) hx
        (hidle 1 (Nat.succ_le_succ (Nat.zero_le _)))
      have hworking := hfirst.trans (ih (hr.after _) hfirst.worked.isOpen hrest fun k hk =>
        hidle (k + 1) (Nat.succ_le_succ hk))
      rwa [Nat.add_comm] at hworking

/-- **What was done in a unit of work is undone** by a rollback, and by a drop. -/
theorem Working.undone {count : Nat} (h : d.Sound spent) (ho : ¬ d.bank.IsOpen (.unit unit))
    (hw : d.Working unit count g) (hidle : ¬ g.isBusy unit = true)
    (hx : x = .rollback ∨ x = .drop) : g.submit (.onUnit unit x) = (.reply (.done .nothing),
      { d with bank := d.bank.withNumbersOf g.bank, next := d.next + count + 1 }) := by
  have hback := hw.worked.rollback h.bank ho (h.awaits_of_closed ho)
  rw [submit_onUnit hw.worked.isOpen hidle]
  have hboth : g.onUnit unit x = (.reply (.done .nothing),
      { g with bank := g.bank.rollback (.unit unit), next := g.next + 1 }) := by
    rcases hx with rfl | rfl <;> rfl
  rw [hboth, hback, hw.same]

end Desk

/-! ## The main result -/

/-- **Rolling back is an exact undo.** A unit of work is opened and calls are made in it, whichever
and as many as there are, with whatever success, as long as none of them has to wait. A rollback
leaves everything as it was before, and so does a drop, call by call and at every desk; only the
numbers of the entries and transfers that were recorded stay used. What a rollback or a commit
leaves to be dropped afterwards is empty, so that its drop changes nothing. -/
theorem Hall.undoing_run (nonNegative : Bool) :
    (∀ ms o cs, ∀ h g : Hall, h = (opening nonNegative).afterAll ms →
      ¬ h.bank.IsOpen o → h.awaits o = none → (∀ c ∈ cs, c.Works) →
      (∀ k ≤ cs.length,
        ((h.after (.call o .begin)).afterAll ((cs.take k).map (.call o))).awaits o = none) →
      g = (h.after (.call o .begin)).afterAll (cs.map (.call o)) → h.Undoes o cs g) ∧
    ∀ es unit xs, ∀ d g : Desk, d = (Desk.opening nonNegative).afterAll es →
      ¬ d.bank.IsOpen (.unit unit) → (∀ x ∈ xs, x.Works) →
      (∀ k ≤ xs.length, ¬ ((d.after (Desk.opens unit)).afterAll
        (Desk.works unit (xs.take k))).isBusy unit = true) →
      g = (d.after (Desk.opens unit)).afterAll (Desk.works unit xs) →
      ∀ x, x = .rollback ∨ x = .drop → g.submit (.onUnit unit x) = (.reply (.done .nothing),
        { d with bank := d.bank.withNumbersOf g.bank, next := d.next + (1 + xs.length) + 1 }) := by
  constructor
  · rintro ms o cs h g rfl ho ha hcs hidle rfl
    have h₀ := sound_run nonNegative ms
    have hbegin := h₀.working_begin ho ha
    have hg := h₀.after (.call o .begin)
    exact h₀.undoes ho ha (hg.afterAll _)
      (hbegin.trans (hg.working_calls hbegin.worked.isOpen hcs hidle))
  · rintro es unit xs d g rfl ho hxs hidle rfl x hx
    have hd : Desk.Reachable nonNegative ((Desk.opening nonNegative).afterAll es) :=
      Desk.Reachable.opening.afterAll es
    have hbegin := hd.sound.working_begin ho
    have hworking := (hd.after _).working_works hbegin.worked.isOpen hxs hidle
    have hlast := hidle xs.length le_rfl
    rw [List.take_length] at hlast
    exact (hbegin.trans hworking).undone hd.sound ho hlast hx

/-- Account 1 is locked by another unit of work, and a statement waits for it. The unit of work to
be undone adjusts account 2 twice, the second time in vain, adjusts an account that is not there,
and records an entry, and a transfer and an entry in vain. -/
theorem Hall.undoing_run_beside_lock :
    let u : Owner := .unit "u"
    let moves : List Move := [.createAccount ⟨"a", 100, .usd⟩, .createAccount ⟨"b", 50, .usd⟩,
      .call (.unit "v") .begin, .call (.unit "v") (.addBalance 1 5), .updateAccount 0 1 7]
    let calls : List Call := [.addBalance 2 (-20), .createTransfer ⟨1, 9, 5⟩, .createEntry ⟨2, 3⟩,
      .createEntry ⟨8, 3⟩, .addBalance 2 (-60), .addBalance 7 1]
    let h := (opening true).afterAll moves
    let g := (h.after (.call u .begin)).afterAll (calls.map (.call u))
    let events : List Event := [.command (.createAccount ⟨"a", 100, .usd⟩),
      .command (.createAccount ⟨"b", 50, .usd⟩), .command (.begin "v"),
      .command (.onUnit "v" (.addBalance 1 5)), .command (.updateAccount 1 7)]
    let actions : List UnitAction := [.addBalance 2 (-20), .createTransfer ⟨1, 9, 5⟩,
      .createEntry ⟨2, 3⟩, .createEntry ⟨8, 3⟩, .addBalance 2 (-60), .addBalance 7 1]
    let d := (Desk.opening true).afterAll events
    let e := (d.after (Desk.opens "u")).afterAll (Desk.works "u" actions)
    ((¬ h.bank.IsOpen u ∧ h.awaits u = none ∧ (∀ c ∈ calls, c.Works) ∧
        ∀ k ≤ calls.length,
          ((h.after (.call u .begin)).afterAll ((calls.take k).map (.call u))).awaits u = none) ∧
      h.Undoes u calls g) ∧
    (¬ d.bank.IsOpen (.unit "u") ∧ (∀ x ∈ actions, x.Works) ∧
        ∀ k ≤ actions.length, ¬ ((d.after (Desk.opens "u")).afterAll
          (Desk.works "u" (actions.take k))).isBusy "u" = true) ∧
      ∀ x, x = .rollback ∨ x = .drop → e.submit (.onUnit "u" x) = (.reply (.done .nothing),
        { d with bank := d.bank.withNumbersOf e.bank,
                 next := d.next + (1 + actions.length) + 1 }) := by
  intro u moves calls h g events actions d e
  have hclosed : ¬ h.bank.IsOpen u := by decide +kernel
  have hidle : h.awaits u = none := by decide +kernel
  have hcalls : ∀ c ∈ calls, c.Works := by decide +kernel
  have hanswered : ∀ k ≤ calls.length, ((h.after (.call u .begin)).afterAll
      ((calls.take k).map (.call u))).awaits u = none := by decide +kernel
  have hclosed' : ¬ d.bank.IsOpen (.unit "u") := by decide +kernel
  have hactions : ∀ x ∈ actions, x.Works := by decide +kernel
  have hfree : ∀ k ≤ actions.length, ¬ ((d.after (Desk.opens "u")).afterAll
      (Desk.works "u" (actions.take k))).isBusy "u" = true := by decide +kernel
  exact ⟨⟨⟨hclosed, hidle, hcalls, hanswered⟩,
    (undoing_run true).1 moves u calls h g rfl hclosed hidle hcalls hanswered rfl⟩,
    ⟨hclosed', hactions, hfree⟩,
    (undoing_run true).2 events "u" actions d e rfl hclosed' hactions hfree rfl⟩

end DoubleEntry
