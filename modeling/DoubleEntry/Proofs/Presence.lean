import DoubleEntry.Proofs.Attempt
import DoubleEntry.Proofs.Conduct
import DoubleEntry.Proofs.Interleaving
import DoubleEntry.Proofs.Moves
set_option autoImplicit false

/-! # No transfer meets a vanished account

A transfer pins both of its accounts when it records itself, before it asks for any row lock. From
then on nobody can delete them, and only the checks of the two new balances can make it fail
(`Call.Rejection`). This is so for transfers that a desk carries out and for those that are carried
out call by call, with anything else happening between two calls (`Hall.Underway`).
-/

namespace DoubleEntry

open Function (update update_self update_of_ne update_eq_self)

/-- **Why a bank may reject a call of a transfer:** the transfer is not recorded because an account
does not exist, or a new balance does not pass a check. -/
def Call.Rejection (nonNegative : Bool) : Call → Violation → Prop
  | .createTransfer n, v =>
      v = .missingAccount .transfer n.source ∨ v = .missingAccount .transfer n.target
  | .addBalance account _, v => v = .balanceOutOfRange account ∨
      nonNegative = true ∧ ∃ balance, balance < 0 ∧ v = .negativeBalance account balance
  | _, _ => False

/-- A call that succeeded, or was rejected for one of these reasons. -/
def Exchange.Checked (nonNegative : Bool) (x : Exchange) : Prop :=
  ∀ e, x.answer = .error e →
    ∃ v, e = .constraintViolation v ∧ x.call.Rejection nonNegative v

/-- **How a transfer without faults ends.** All calls of its plan are carried out, or the last call
of the plan that is made is rejected and the transfer rolled back: the call that records the
transfer, or after it one of the two adjustments. -/
def Outcome.Checked (nonNegative : Bool) (n : NewTransfer) (made : List Call) : Outcome → Prop
  | .completed _ => made = n.plan
  | .failed e => ∃ before c v, made = before ++ [c, .rollback] ∧ before ++ [c] <+: n.plan ∧
      e = .constraintViolation v ∧ c.Rejection nonNegative v
  | .overflowed => False

variable {nonNegative : Bool} {n : NewTransfer} {xs : List Exchange}

theorem Exchange.checked_done (c : Call) (a : c.Answer) :
    (Exchange.done c a).Checked nonNegative := fun _ he => nomatch he

/-- An outcome to which checked calls led. -/
theorem Outcome.After.checked {outcome : Outcome} (h : outcome.After n xs)
    (hxs : ∀ x ∈ xs, x.Checked nonNegative) :
    outcome.Checked nonNegative n (xs.map Exchange.call) := by
  cases h with
  | completed r =>
      show (r.exchanges n ++ [Exchange.done .commit ()]).map Exchange.call = n.plan
      rw [List.map_append, Stage.calls_receipt]
      rfl
  | @refused s ys hs remedy e =>
      -- Neither beginning nor committing is ever rejected.
      obtain ⟨v, -, hv⟩ := hxs (.lost (s.call n) e) (by simp) e rfl
      cases hc : s.call n with
      | createTransfer m => rw [hc] at remedy; cases remedy
      | createEntry m => rw [hc] at remedy; cases remedy
      | addBalance account delta => rw [hc] at remedy; cases remedy
      | _ => rw [Exchange.call_lost, hc] at hv; exact hv.elim
  | @rolledBack ys cause hs =>
      obtain ⟨s, before, hbefore, -, rfl⟩ := hs.cases_rollingBack
      obtain ⟨v, rfl, hv⟩ := hxs (.lost (s.call n) cause) (by simp) cause rfl
      refine ⟨before.map Exchange.call, s.call n, v, ?_, Stage.plan_of_exchanges hbefore, rfl, hv⟩
      rw [List.map_append, List.map_append, List.append_assoc]
      rfl
  | @stuck ys cause hs e =>
      obtain ⟨v, -, hv⟩ := hxs (.lost .rollback e) (by simp) e rfl
      exact hv.elim

/-- No call has failed before a stage at which none has. -/
theorem Stage.checked_of_exchanges {s : Stage} (h : s.exchanges? n = some xs) :
    ∀ x ∈ xs, x.Checked nonNegative := by
  intro x hx e he
  have hfailed := List.any_eq_false.1 (Stage.failed_of_exchanges h) x hx
  unfold Exchange.failed at hfailed
  rw [he] at hfailed
  exact absurd rfl hfailed

/-! ## What holds of every answer on the way -/

/-- What holds of every call that a run makes, with its answer, holds of the calls that lead from
the start of the run to where it waits or ends. -/
theorem Store.run_answers {σ : Type} {store : Store σ} {P W : Run → σ → Prop}
    {E : Outcome → σ → Prop} {Q : Exchange → Prop}
    (hstep : ∀ r s, P r s → Leads P W E r (store.answer r s))
    (hanswer : ∀ r s a, P r s → (store.answer r s).1 = some a → Q ⟨r.call, a⟩)
    (representable : n.amount ≠ Amount.least) {r : Run} {s : σ} (h : P r s)
    (hr : (Advance.waiting r).After n xs) :
    ∃ ys, (∀ y ∈ ys, Q y) ∧ (store.run r s).1.After n (xs ++ ys) := by
  unfold run
  generalize r.stage.remaining = fuel
  induction fuel generalizing r s xs with
  | zero => exact ⟨[], by simp, by simpa [runFor] using hr⟩
  | succ fuel ih =>
      have hlead := hstep r s h
      have hQ := hanswer r s
      obtain ⟨rfl, hanswered, hstage⟩ := hr
      unfold runFor
      generalize store.answer r s = x at hlead hQ ⊢
      obtain ⟨_ | a, s'⟩ := x
      · exact ⟨[], by simp, rfl, by simpa using hanswered, by simpa using hstage⟩
      · have hy := hQ a h rfl
        have hnext := hstage.resume representable a
        have hmade : r.made = (xs ++ [Exchange.mk r.call a]).map Exchange.call := by
          rw [Run.made, hanswered, List.map_append]
          rfl
        unfold Leads at hlead
        dsimp only at hlead ⊢
        cases hs : r.stage.resume r.request a with
        | inl stage =>
            rw [hs] at hlead hnext
            obtain ⟨ys, hys, hrest⟩ :=
              ih (r := { r with stage, answered := r.made }) hlead ⟨rfl, hmade, hnext⟩
            refine ⟨⟨r.call, a⟩ :: ys, List.forall_mem_cons.2 ⟨hy, hys⟩, ?_⟩
            rwa [List.append_assoc] at hrest
        | inr outcome =>
            rw [hs] at hnext
            exact ⟨[⟨r.call, a⟩], by simpa using hy, hmade, hnext⟩

/-! ## Every call of a transfer -/

namespace Bank

variable {spent : Spent} {b₀ b : Bank} {o : Owner} {awaits : Owner → Option Int} {a delta : Int}
  {r : Run} {s : Stage} {ds : List Deed}

/-- The accounts of a transfer that is staged exist: they are pinned. -/
theorem Carries.accounts_exist (h : b.Carries o n s) (hb : b.Anchored) (hds : s.deeds? n = some ds)
    {t : Transfer} (ht : .transfer t ∈ ds) (hfits : t.Fits n) :
    b.accounts.contains n.source = true ∧ b.accounts.contains n.target = true := by
  have hreflects := h.reflects hds
  obtain ⟨hs, htg, -⟩ := hfits
  rw [← hs, ← htg, ← contains_ledger, ← contains_ledger]
  exact ⟨Reflects.named_exists hb hreflects.transfers hreflects.entries ht (by simp [Deed.named]),
    Reflects.named_exists hb hreflects.transfers hreflects.entries ht (by simp [Deed.named])⟩

/-- The accounts whose balances it adjusts are the same two. -/
theorem Carries.adjusted_exist (h : b.Carries o n s) (hb : b.Anchored) (hds : s.deeds? n = some ds)
    {t : Transfer} (ht : .transfer t ∈ ds) (hfits : t.Fits n) :
    b.accounts.contains n.adjustments.1.account = true ∧
      b.accounts.contains n.adjustments.2.account = true := by
  obtain ⟨hsource, htarget⟩ := h.accounts_exist hb hds ht hfits
  unfold NewTransfer.adjustments
  split
  · exact ⟨hsource, htarget⟩
  · exact ⟨htarget, hsource⟩

/-- The account whose row a transfer awaits exists. -/
theorem Carries.awaited_exists (h : b.Carries o n s) (hb : b.Anchored)
    (ha : s.awaits? n = some a) : b.accounts.contains a = true := by
  have hfits := h.fits
  cases s with
  | adjustingFirst t debit credit =>
      obtain rfl := Option.some.inj ha
      exact (h.adjusted_exist hb rfl List.mem_cons_self hfits.1).1
  | adjustingSecond t debit credit first =>
      obtain rfl := Option.some.inj ha
      exact (h.adjusted_exist hb rfl List.mem_cons_self hfits.1).2
  | _ => cases ha

theorem checked_createTransfer (b : Bank) (o : Owner) (n : NewTransfer) :
    Exchange.Checked nonNegative ⟨.createTransfer n, (b.createTransfer o n).1⟩ := by
  intro e he
  dsimp only at he
  rcases b.createTransfer_cases o n with ⟨-, heq⟩ | ⟨-, -, heq⟩ | ⟨-, -, t, -, heq⟩
  · rw [heq] at he
    exact ⟨_, (Except.error.inj he).symm, .inl rfl⟩
  · rw [heq] at he
    exact ⟨_, (Except.error.inj he).symm, .inr rfl⟩
  · rw [heq] at he
    cases he

theorem checked_createEntry {m : NewEntry} (hm : b.accounts.contains m.account = true) :
    Exchange.Checked nonNegative ⟨.createEntry m, (b.createEntry o m).1⟩ := by
  intro e he
  dsimp only at he
  rcases b.createEntry_cases o m with ⟨hn, -⟩ | ⟨-, x, -, heq⟩
  · exact absurd hm hn
  · rw [heq] at he
    cases he

/-- **The adjustment of an account that exists** finds it again after any wait. -/
theorem Sound.checked_addBalance (hb : b.Sound awaits) (ho : b.IsOpen o)
    (ha : awaits o = none ∨ awaits o = some a) (hcontains : b.accounts.contains a = true)
    {answer : Except LedgerError Account} (hanswer : (b.addBalance o a delta).1 = some answer) :
    Exchange.Checked b.nonNegative ⟨.addBalance a delta, answer⟩ := by
  intro e he
  obtain rfl : answer = .error e := he
  rcases hb.addBalance_cases ho ha delta with ⟨locks, heq, -⟩ | ⟨locks, -, hmissing, -⟩ |
    ⟨c, heq, hw, hs, -, hheld, -⟩
  · rw [heq] at hanswer
    cases hanswer
  · rw [hmissing] at hcontains
    cases hcontains
  · rw [heq] at hanswer
    obtain ⟨g, hg, rfl⟩ := List.mem_map.1 hheld
    obtain ⟨row, hrow, -⟩ := hs.settled.prior hg
    -- Whoever holds the lock finds the row, so only the two checks are left.
    rcases adjust_cases hrow delta with ⟨-, hout⟩ | ⟨hnn, hneg, hbelow⟩ | ⟨-, -, hok⟩
    · rw [hout] at hanswer
      exact ⟨_, (Except.error.inj (Option.some.inj hanswer)).symm, .inl rfl⟩
    · rw [hbelow] at hanswer
      rw [hw.nonNegative] at hnn
      exact ⟨_, (Except.error.inj (Option.some.inj hanswer)).symm, .inr ⟨hnn, _, hneg, rfl⟩⟩
    · rw [hok] at hanswer
      cases Option.some.inj hanswer

/-- **Every call of a transfer** succeeds or is rejected for a reason that the transfer can meet. -/
theorem InFlight.checked (h : b₀.InFlight spent awaits o n r b)
    {answer : Except LedgerError r.call.Answer}
    (hanswer : ((store o).perform r.call b).1 = some answer) :
    Exchange.Checked b.nonNegative ⟨r.call, answer⟩ := by
  obtain ⟨request, faults, stage, answered⟩ := r
  obtain rfl : request = n := h.request
  have hb : ∃ x, b.Sound (update awaits o x) ∧ (x = none ∨ x = stage.awaits? request) := by
    rcases h.sound with hs | ⟨a, ha, hs, -⟩
    · exact ⟨none, hs, .inl rfl⟩
    · exact ⟨some a, hs, .inr ha.symm⟩
  obtain ⟨x, hb, hx⟩ := hb
  have ho : stage ≠ .beginning → b.IsOpen o := h.carries.isOpen.2
  have hfits := h.carries.fits
  -- Once the transfer is staged, both accounts exist.
  have hexist : ∀ {t : Transfer} {ds : List Deed}, stage.deeds? request = some (.transfer t :: ds) →
      t.Fits request → b.accounts.contains request.source = true ∧
        b.accounts.contains request.target = true := fun hds ht =>
    h.carries.accounts_exist hb.anchored hds List.mem_cons_self ht
  have hasks : ∀ {a}, stage.awaits? request = some a →
      update awaits o x o = none ∨ update awaits o x o = some a := by
    intro a ha
    rw [update_self, ← ha]
    exact hx
  cases stage with
  | beginning => obtain rfl := Option.some.inj hanswer; exact Exchange.checked_done .begin ()
  | recording =>
      obtain rfl := Option.some.inj hanswer
      exact checked_createTransfer b o request
  | debiting t =>
      obtain rfl := Option.some.inj hanswer
      exact checked_createEntry (hexist rfl hfits).1
  | crediting t debit =>
      obtain rfl := Option.some.inj hanswer
      exact checked_createEntry (hexist rfl hfits.1).2
  | adjustingFirst t debit credit =>
      exact hb.checked_addBalance (ho (by simp)) (hasks rfl)
        (h.carries.awaited_exists hb.anchored rfl) hanswer
  | adjustingSecond t debit credit first =>
      exact hb.checked_addBalance (ho (by simp)) (hasks rfl)
        (h.carries.awaited_exists hb.anchored rfl) hanswer
  | committing receipt =>
      obtain rfl := Option.some.inj hanswer
      exact Exchange.checked_done .commit ()
  | rollingBack cause =>
      obtain rfl := Option.some.inj hanswer
      exact Exchange.checked_done .rollback ()

end Bank

/-! ## Transfers, call by call -/

namespace Hall

/-- **A transfer that an owner carries out call by call,** from any time on: what it was answered so
far, and the stage that it has come to, or how it has ended. Between two calls, and while a call
waits, others make whatever moves they like. -/
inductive Underway (nonNegative : Bool) (o : Owner) (n : NewTransfer) :
    Hall → List Exchange → Stage ⊕ Outcome → Prop
  | start (ms : List Move) (closed : ¬ ((opening nonNegative).afterAll ms).bank.IsOpen o)
      (idle : ((opening nonNegative).afterAll ms).awaits o = none) :
      Underway nonNegative o n ((opening nonNegative).afterAll ms) [] (.inl .beginning)
  | meanwhile {h : Hall} {xs : List Exchange} {s : Stage} (m : Move)
      (others : m.actor? ≠ some o) (before : Underway nonNegative o n h xs (.inl s)) :
      Underway nonNegative o n (h.after m) xs (.inl s)
  | waits {h : Hall} {xs : List Exchange} {s : Stage}
      (before : Underway nonNegative o n h xs (.inl s))
      (silent : ((Bank.store o).perform (s.call n) h.bank).1 = none) :
      Underway nonNegative o n (h.after (.call o (s.call n))) xs (.inl s)
  | answered {h : Hall} {xs : List Exchange} {s : Stage}
      (before : Underway nonNegative o n h xs (.inl s))
      {answer : Except LedgerError (s.call n).Answer}
      (answers : ((Bank.store o).perform (s.call n) h.bank).1 = some answer) :
      Underway nonNegative o n (h.after (.call o (s.call n)))
        (xs ++ [⟨s.call n, answer⟩]) (s.resume n answer)

/-- What holds of such a transfer as long as it has not ended. -/
structure OnCourse (nonNegative : Bool) (o : Owner) (n : NewTransfer) (h : Hall)
    (xs : List Exchange) (s : Stage) : Prop where
  sound : h.Sound
  constraint : h.bank.nonNegative = nonNegative
  carries : h.bank.Carries o n s
  asks : h.awaits o = none ∨ h.awaits o = (s.call n).row?
  after : s.After n xs
  checked : ∀ x ∈ xs, x.Checked nonNegative

variable {o : Owner} {h : Hall} {s : Stage} {m : Move}

namespace OnCourse

/-- An owner that has no unit of work, and waits for nothing, may begin. -/
theorem beginning (n : NewTransfer) (sound : h.Sound)
    (constraint : h.bank.nonNegative = nonNegative) (closed : ¬ h.bank.IsOpen o)
    (idle : h.awaits o = none) : OnCourse nonNegative o n h [] .beginning :=
  ⟨sound, constraint, (Bank.InFlight.start sound.bank sound.fresh closed idle n []).carries,
    .inl idle, .going rfl, by simp⟩

theorem mayCall (h₀ : OnCourse nonNegative o n h xs s) : h.MayCall o (s.call n) :=
  ⟨h₀.carries.isOpen.trans (Stage.call_eq_begin_iff n s).not.symm, h₀.asks⟩

theorem inFlight (h₀ : OnCourse nonNegative o n h xs s) :
    h.bank.InFlight {} h.awaits o n ⟨n, [], s, []⟩ h.bank := by
  refine ⟨rfl, .refl _ _, h₀.sound.fresh, h₀.carries, ?_⟩
  have hb := h₀.sound.bank
  cases ha : h.awaits o with
  | none => exact .inl (hb.idle ha)
  | some a =>
      have hrow : s.awaits? n = some a := by
        have hasks := h₀.asks.resolve_left (by rw [ha]; simp)
        rw [ha] at hasks
        exact (Run.row?_call ⟨n, [], s, []⟩).symm.trans hasks.symm
      refine .inr ⟨a, hrow, ?_, rfl⟩
      rwa [← ha, update_eq_self]

/-- Where the next call leads. -/
theorem leads (h₀ : OnCourse nonNegative o n h xs s) :
    Store.Leads (h.bank.InFlight {} h.awaits o n) (h.bank.Waits {} h.awaits o n)
      (h.bank.Ends {} h.awaits o n) ⟨n, [], s, []⟩
      ((Bank.store o).perform (s.call n) h.bank) := by
  have hleads := h₀.inFlight.leads
  unfold Bank.Proceeds at hleads
  rcases (Bank.store o).answer_cases ⟨n, [], s, []⟩ h.bank with ⟨e, hfault, -⟩ | ⟨-, heq⟩
  · cases hfault
  · rwa [heq] at hleads

theorem nonNegative_after (h₀ : OnCourse nonNegative o n h xs s) (m : Move) :
    (h.after m).bank.nonNegative = nonNegative :=
  (h₀.sound.brings m).nonNegative.trans h₀.constraint

/-- Others do something. -/
theorem meanwhile (h₀ : OnCourse nonNegative o n h xs s) (hm : m.actor? ≠ some o) :
    OnCourse nonNegative o n (h.after m) xs s where
  sound := h₀.sound.after m
  constraint := h₀.nonNegative_after m
  carries := h₀.carries.of_keeps ((h₀.sound.brings m).keeps hm) (h₀.sound.after m).bank.anchored
  asks := by
    rw [awaits_after hm]
    exact h₀.asks
  after := h₀.after
  checked := h₀.checked

/-- The next call has to wait. -/
theorem waits (h₀ : OnCourse nonNegative o n h xs s)
    (hsilent : ((Bank.store o).perform (s.call n) h.bank).1 = none) :
    OnCourse nonNegative o n (h.after (.call o (s.call n))) xs s := by
  have hlead := h₀.leads
  have hsound := h₀.sound.after (.call o (s.call n))
  have hnn := h₀.nonNegative_after (.call o (s.call n))
  rw [after_call h₀.mayCall] at hsound hnn ⊢
  unfold Hall.call at hsound hnn ⊢
  generalize (Bank.store o).perform (s.call n) h.bank = x at hsilent hlead hsound hnn ⊢
  obtain ⟨answer, b⟩ := x
  obtain rfl : answer = none := hsilent
  exact ⟨hsound, hnn, hlead.carries, .inr (update_self _ _ _), h₀.after, h₀.checked⟩

/-- The next call is answered. -/
theorem answered (h₀ : OnCourse nonNegative o n h xs s) (representable : n.amount ≠ Amount.least)
    {answer : Except LedgerError (s.call n).Answer}
    (hanswer : ((Bank.store o).perform (s.call n) h.bank).1 = some answer) :
    (∀ x ∈ xs ++ [⟨s.call n, answer⟩], x.Checked nonNegative) ∧
      LedTo n (xs ++ [⟨s.call n, answer⟩]) (s.resume n answer) ∧
      ∀ s', s.resume n answer = .inl s' → OnCourse nonNegative o n
        (h.after (.call o (s.call n))) (xs ++ [⟨s.call n, answer⟩]) s' := by
  have hchecked : ∀ x ∈ xs ++ [⟨s.call n, answer⟩], x.Checked nonNegative := by
    have hlast := h₀.inFlight.checked hanswer
    rw [h₀.constraint] at hlast
    intro x hx
    rcases List.mem_append.1 hx with hx | hx
    · exact h₀.checked x hx
    · rw [List.mem_singleton.1 hx]
      exact hlast
  have hafter := h₀.after.resume representable answer
  refine ⟨hchecked, hafter, fun s' hs' => ?_⟩
  rw [hs'] at hafter
  have hlead := h₀.leads
  have hsound := h₀.sound.after (.call o (s.call n))
  have hnn := h₀.nonNegative_after (.call o (s.call n))
  rw [after_call h₀.mayCall] at hsound hnn ⊢
  unfold Hall.call at hsound hnn ⊢
  generalize (Bank.store o).perform (s.call n) h.bank = x at hanswer hlead hsound hnn ⊢
  obtain ⟨answer', b⟩ := x
  obtain rfl : answer' = some answer := hanswer
  unfold Store.Leads at hlead
  dsimp only at hlead
  rw [hs'] at hlead
  exact ⟨hsound, hnn, hlead.carries, .inl (update_self _ _ _), hafter, hchecked⟩

end OnCourse

/-- What is known of a transfer under way: its calls were checked, they led it to where it stands,
and it is on course unless it has ended. -/
structure Stands (nonNegative : Bool) (o : Owner) (n : NewTransfer) (h : Hall)
    (xs : List Exchange) (p : Stage ⊕ Outcome) : Prop where
  checked : ∀ x ∈ xs, x.Checked nonNegative
  led : LedTo n xs p
  onCourse : ∀ s, p = .inl s → OnCourse nonNegative o n h xs s

theorem OnCourse.stands (h₀ : OnCourse nonNegative o n h xs s) :
    Stands nonNegative o n h xs (.inl s) := by
  refine ⟨h₀.checked, h₀.after, fun s' hs => ?_⟩
  obtain rfl := Sum.inl.inj hs
  exact h₀

/-- **Every call of such a transfer is checked,** and leads it further along its plan or to its
end. -/
theorem Underway.stands {p : Stage ⊕ Outcome} (hu : Underway nonNegative o n h xs p)
    (representable : n.amount ≠ Amount.least) : Stands nonNegative o n h xs p := by
  induction hu with
  | start ms closed idle =>
      have hconstraint := ((sound_opening nonNegative).brings_all ms).2.2
      exact (OnCourse.beginning n (sound_run nonNegative ms) hconstraint closed idle).stands
  | meanwhile m others before ih => exact ((ih.onCourse _ rfl).meanwhile others).stands
  | waits before silent ih => exact ((ih.onCourse _ rfl).waits silent).stands
  | answered before answers ih =>
      obtain ⟨hchecked, hled, hcourse⟩ := (ih.onCourse _ rfl).answered representable answers
      exact ⟨hchecked, hled, hcourse⟩

end Hall

/-! ## Transfers at a desk -/

/-- A transfer without faults that has come to where it waits along its plan. -/
def Request.Clean (t : NewTransfer) (r : Request) : Prop :=
  ∃ run xs, r = .transfer run ∧ run.faults = [] ∧ (Advance.waiting run).After t xs

theorem Store.leads_faults {σ : Type} (store : Store σ) {r : Run} (hr : r.faults = []) (s : σ) :
    Leads (fun r' _ => r'.faults = []) (fun r' _ => r'.faults = []) (fun _ _ => True) r
      (store.answer r s) := by
  unfold Leads
  rcases store.answer r s with ⟨_ | answer, s'⟩
  · exact hr
  · dsimp only
    cases r.stage.resume r.request answer with
    | inl stage => exact hr
    | inr outcome => trivial

/-- A transfer without faults stays one, and on its plan, however far it gets. -/
theorem Request.Clean.proceed {t : NewTransfer} {r : Request} (h : r.Clean t)
    (representable : t.amount ≠ Amount.least) (number : Nat) (b : Bank) :
    (r.proceed number b).2.1.Clean t := by
  obtain ⟨run, xs, rfl, hfaults, hafter⟩ := h
  have hrun : Store.Satisfies (fun r' _ => r'.faults = []) (fun _ _ => True)
      ((Bank.store (.call number)).run run b) :=
    Store.run_satisfies (fun r' s' hr => (Bank.store _).leads_faults hr s') hfaults
  obtain ⟨found, hfound⟩ :=
    (Bank.store (.call number)).exists_course_runFor run.stage.remaining run b
  have hcourse := (Bank.store (.call number)).after_course representable found hafter
  unfold Request.proceed
  dsimp only
  rw [hfound, ← Store.run] at hcourse
  generalize (Bank.store (.call number)).run run b = x at hrun hcourse ⊢
  obtain ⟨run' | ⟨outcome, made⟩, b'⟩ := x
  · exact ⟨run', _, rfl, hrun, hcourse⟩
  · exact ⟨run, xs, rfl, hfaults, hafter⟩

namespace Desk

variable {spent : Spent} {d : Desk} {k : Nat} {t : NewTransfer} {run : Run} {reply : Reply}

/-- **What a transfer without faults replies** when it is asked to go on. -/
theorem checked_attempt (hcan : d.bank.CanProceed spent d.awaits k (.transfer run))
    (representable : t.amount ≠ Amount.least) (hfaults : run.faults = [])
    (hafter : (Advance.waiting run).After t xs) (hxs : ∀ x ∈ xs, x.Checked d.bank.nonNegative)
    (hreply : (d.attempt k (.transfer run)).1 = some reply) :
    ∃ outcome made, reply = .transfer outcome made ∧
      outcome.Checked d.bank.nonNegative t made := by
  obtain ⟨ys, hys, hends⟩ := Store.run_answers (Q := Exchange.Checked d.bank.nonNegative)
    (P := fun r b => d.bank.InFlight spent d.awaits (.call k) run.request r b ∧ r.faults = [])
    (fun r b hr => hr.1.leads.and ((Bank.store (.call k)).leads_faults hr.2 b))
    (fun r b answer hr hanswer => by
      obtain ⟨hr, hnone⟩ := hr
      -- Without faults each call is made at the bank.
      rcases (Bank.store (.call k)).answer_cases r b with ⟨e, hfault, -⟩ | ⟨-, heq⟩
      · rw [hnone] at hfault
        cases hfault
      · rw [heq] at hanswer
        rw [← hr.within.nonNegative]
        exact hr.checked hanswer)
    representable ⟨hcan, hfaults⟩ hafter
  have hchecked : ∀ x ∈ xs ++ ys, x.Checked d.bank.nonNegative := fun x hx =>
    (List.mem_append.1 hx).elim (hxs x) (hys x)
  rw [attempt_reply] at hreply
  unfold Request.proceed at hreply
  dsimp only at hreply
  generalize (Bank.store (.call k)).run run d.bank = x at hends hreply
  obtain ⟨run' | ⟨outcome, made⟩, b'⟩ := x
  · cases hreply
  · obtain rfl := Option.some.inj hreply
    obtain ⟨rfl, houtcome⟩ := hends
    exact ⟨outcome, _, rfl, houtcome.checked hchecked⟩

/-- A pending call waits for a row, so no call of its plan has failed. -/
theorem Sound.checked_pending (h : d.Sound spent) (hr : (k, .transfer run) ∈ d.pending)
    (hafter : (Advance.waiting run).After t xs) : ∀ x ∈ xs, x.Checked nonNegative := by
  have hwaits := h.waits hr
  rw [Request.awaits?_transfer] at hwaits
  obtain ⟨rfl, -, hstage⟩ := hafter
  generalize run.stage = s at hwaits hstage
  cases hstage with
  | going hs => exact Stage.checked_of_exchanges hs
  | failing hs remedy cause => cases hwaits

/-- A transfer without faults that is started under the next number stays one as long as it is
pending. -/
theorem Sound.clean_afterAll (h : d.Sound spent) (representable : t.amount ≠ Amount.least)
    (es : List Event) {r : Request}
    (hr : (d.next, r) ∈ ((d.after (.command (.transfer t []))).afterAll es).pending) :
    r.Clean t := by
  -- Induction on the events: the number is taken from the start on.
  induction es using List.reverseRecOn generalizing r with
  | nil =>
      replace hr : (d.next, r) ∈ (d.after (.command (.transfer t []))).pending := hr
      refine pending_after (P := fun m r => m = d.next → r.Clean t)
        (fun {n r} b hr hn => (hr hn).proceed representable n b) (fun {c r} hc hrequest _ => ?_)
        (fun hs hn => absurd hn (h.below hs).ne) hr rfl
      obtain rfl := Event.command.inj hc
      obtain rfl := Option.some.inj hrequest
      exact ⟨_, [], rfl, rfl, rfl, rfl, .going rfl⟩
  | append_singleton es e ih =>
      have hnumbered := ((h.has_start t []).afterAll es).numbered
      rw [afterAll_append] at hr
      exact pending_after (P := fun m r => m = d.next → r.Clean t)
        (fun {n r} b hr hn => (hr hn).proceed representable n b)
        (fun {c r} _ _ hn => absurd hn hnumbered.ne') (fun hs hn => ih (hn ▸ hs)) hr rfl

theorem Reachable.bank_nonNegative (h : d.Reachable nonNegative) :
    d.bank.nonNegative = nonNegative := by
  obtain ⟨s, rfl, hs⟩ := h.history
  exact hs.nonNegative

/-- What a transfer without faults replies, at once or when it is asked to go on later. -/
theorem Reachable.checked_reply (h : d.Reachable nonNegative)
    (representable : t.amount ≠ Amount.least)
    (hreply : (d.submit (.transfer t [])).1.reply? = some reply ∨ ∃ es : List Event,
      (((d.after (.command (.transfer t []))).afterAll es).poll d.next).1 = some reply) :
    ∃ outcome made, reply = .transfer outcome made ∧ outcome.Checked nonNegative t made := by
  rcases hreply with hreply | ⟨es, hreply⟩
  · have hattempt := d.reply?_call (.transfer { request := t, faults := [] })
    have hchecked := checked_attempt (h.sound.canStart t []) representable rfl
      ⟨rfl, rfl, .going rfl⟩ (fun x hx => nomatch hx) (hattempt.symm.trans hreply)
    rwa [h.bank_nonNegative] at hchecked
  · have hlater := (h.after (.command (.transfer t []))).afterAll es
    rcases poll_cases ((d.after (.command (.transfer t []))).afterAll es) d.next with
      ⟨-, heq⟩ | ⟨r, hr, -, heq⟩
    · rw [heq] at hreply
      cases hreply
    · rw [heq] at hreply
      obtain ⟨run, xs, rfl, hfaults, hafter⟩ := h.sound.clean_afterAll representable es hr
      have hchecked := checked_attempt (hlater.sound.canProceed hr) representable hfaults hafter
        (hlater.sound.checked_pending hr hafter) hreply
      rwa [hlater.bank_nonNegative] at hchecked

end Desk

/-! ## The main result -/

/-- **A transfer never meets a vanished account.** If a transfer without faults ends, it was carried
out or a check rejected it: that its accounts exist, when it recorded itself, and from then on only
the checks of its two new balances. This holds of transfers that are carried out call by call, with
anything else happening meanwhile, and of the replies of every desk. -/
theorem NewTransfer.ends_checked (nonNegative : Bool) (n : NewTransfer)
    (representable : n.amount ≠ Amount.least) :
    (∀ {o h xs outcome}, Hall.Underway nonNegative o n h xs (.inr outcome) →
      outcome.Checked nonNegative n (xs.map Exchange.call)) ∧
    ∀ {d : Desk} {reply}, d.Reachable nonNegative →
      ((d.submit (.transfer n [])).1.reply? = some reply ∨ ∃ es : List Event,
        (((d.after (.command (.transfer n []))).afterAll es).poll d.next).1 = some reply) →
      ∃ outcome made, reply = .transfer outcome made ∧ outcome.Checked nonNegative n made := by
  refine ⟨fun {o h xs outcome} hu => ?_, fun hd hreply => hd.checked_reply representable hreply⟩
  have hstands := hu.stands representable
  have hled : outcome.After n xs := hstands.led
  exact hled.checked hstands.checked

/-- A call to delete the source is first in the queue for its row when the transfer is started; both
get the row after the unit of work that has locked it is rolled back. -/
theorem NewTransfer.ends_checked_raced :
    let d := (Desk.opening true).afterAll [.command (.createAccount ⟨"a", 100, .usd⟩),
      .command (.createAccount ⟨"b", 50, .usd⟩), .command (.begin "u"),
      .command (.onUnit "u" (.addBalance 1 7)), .command (.deleteAccount 1)]
    let n : NewTransfer := ⟨1, 2, 300⟩
    let es := [Event.command (.onUnit "u" .rollback), .poll 4]
    let reply := Reply.transfer (.failed (.constraintViolation (.negativeBalance 1 (-200))))
      [.begin, .createTransfer n, .createEntry ⟨1, -300⟩, .createEntry ⟨2, 300⟩,
        .addBalance 1 (-300), .rollback]
    (n.amount ≠ Amount.least ∧ d.Reachable true ∧
      (((d.after (.command (.transfer n []))).afterAll es).poll d.next).1 = some reply) ∧
    ∃ outcome made, reply = .transfer outcome made ∧ outcome.Checked true n made := by
  intro d n es reply
  have hd : d.Reachable true := Desk.Reachable.opening.afterAll _
  have hn : n.amount ≠ Amount.least := by decide
  have hreply : (((d.after (.command (.transfer n []))).afterAll es).poll d.next).1 =
      some reply := by decide +kernel
  exact ⟨⟨hn, hd, hreply⟩, (ends_checked true n hn).2 hd (.inr ⟨es, hreply⟩)⟩

end DoubleEntry
