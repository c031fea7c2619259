import DoubleEntry.Proofs.AppendOnly
import DoubleEntry.Proofs.Erasure
set_option autoImplicit false

/-! # Which accounts can be deleted

Deleting an account asks for its row alone. Whether it succeeds is read off the committed rows and a
count of pins, and `Bank.Decides` says what that comes to: an account stays that a committed or a
staged row names. It also stays when it is stranded, that is, when an open unit of work has pinned
it more often than its staged rows name it. The one way to that is a transfer that was not recorded
because its target does not exist (`Hall.Stranding`): the source has been pinned by then, and the
pin is only taken off when the unit of work ends.
-/

namespace DoubleEntry

open Function (update update_self update_of_ne update_eq_self)

/-- The accounts that the staged rows of a unit of work name, once for each time. -/
def Work.named (w : Work) : List Int :=
  (w.transfers.flatMap fun t => [t.source, t.target]) ++ w.entries.map Entry.account

theorem Work.mem_named {w : Work} {a : Int} : a ∈ w.named ↔
    (∃ t ∈ w.transfers, t.source = a ∨ t.target = a) ∨ ∃ e ∈ w.entries, e.account = a := by
  simp [named, eq_comm]

/-- The account that a call has pinned without staging a row: the source of a transfer that was not
recorded because its target does not exist. -/
def Exchange.stranded : Exchange → List Int
  | ⟨.createTransfer n, .error e⟩ =>
      if n.source ≠ n.target ∧ e = .constraintViolation (.missingAccount .transfer n.target) then
        [n.source]
      else []
  | _ => []

theorem Exchange.mem_stranded {x : Exchange} {a : Int} : a ∈ x.stranded ↔
    ∃ n, x = .lost (.createTransfer n) (.constraintViolation (.missingAccount .transfer n.target)) ∧
      n.source ≠ n.target ∧ n.source = a := by
  constructor
  · obtain ⟨c, answer⟩ := x
    intro ha
    cases c with
    | createTransfer n =>
        cases answer with
        | ok t => cases ha
        | error e =>
            unfold stranded at ha
            dsimp only at ha
            split at ha
            · rename_i hcase
              obtain ⟨hne, rfl⟩ := hcase
              exact ⟨n, rfl, hne, (List.mem_singleton.1 ha).symm⟩
            · cases ha
    | _ => cases answer <;> cases ha
  · rintro ⟨n, rfl, hne, rfl⟩
    simp [lost, stranded, hne]

/-- The accounts that a call has pinned. -/
def Exchange.pins (x : Exchange) : List Int := x.deeds.flatMap Deed.named ++ x.stranded

namespace Bank

/-- A committed or staged transfer or entry names an account. -/
def Names (b : Bank) (a : Int) : Prop :=
  (∃ t ∈ b.transfersInUse, t.source = a ∨ t.target = a) ∨ ∃ e ∈ b.entriesInUse, e.account = a

instance (b : Bank) (a : Int) : Decidable (b.Names a) := inferInstanceAs (Decidable (_ ∨ _))

/-- An open unit of work has pinned an account more often than its staged rows name it. -/
def Stranded (b : Bank) (a : Int) : Prop :=
  ∃ x ∈ b.works, x.2.named.count a < x.2.pinned.count a

instance (b : Bank) (a : Int) : Decidable (b.Stranded a) :=
  inferInstanceAs (Decidable (∃ x ∈ b.works, _))

variable {b : Bank} {o : Owner} {awaits : Owner → Option Int} {a delta : Int}

/-! ## Committed rows and pins -/

theorem Anchored.named_subset (h : b.Anchored) (o : Owner) :
    (b.work o).named ⊆ (b.work o).pinned := by
  intro k hk
  rcases List.mem_append.1 hk with hk | hk
  · obtain ⟨t, ht, hk⟩ := List.mem_flatMap.1 hk
    obtain ⟨hs, htg⟩ := h.stagedTransfer ht
    rcases List.mem_cons.1 hk with rfl | hk
    · exact hs
    · rwa [List.mem_singleton.1 hk]
  · obtain ⟨e, he, rfl⟩ := List.mem_map.1 hk
    exact h.stagedEntry he

/-- Some unit of work has pinned an account: a row that it staged names the account, or the account
is stranded. -/
theorem Anchored.mem_pinned_iff (h : b.Anchored) :
    a ∈ b.pinned ↔ (∃ x ∈ b.works, a ∈ x.2.named) ∨ b.Stranded a := by
  unfold Bank.pinned
  rw [List.mem_flatMap]
  constructor
  · rintro ⟨x, hx, ha⟩
    by_cases hnamed : a ∈ x.2.named
    · exact .inl ⟨x, hx, hnamed⟩
    · refine .inr ⟨x, hx, ?_⟩
      rw [List.count_eq_zero.2 hnamed]
      exact List.count_pos_iff.2 ha
  · rintro (⟨x, hx, ha⟩ | ⟨x, hx, hlt⟩)
    · refine ⟨x, hx, ?_⟩
      rw [← (h.work_of_mem hx).2] at ha ⊢
      exact h.named_subset x.1 ha
    · exact ⟨x, hx, List.count_pos_iff.1 (by omega)⟩

theorem names_iff : b.Names a ↔ b.ledger.Refers a ∨ ∃ x ∈ b.works, a ∈ x.2.named := by
  constructor
  · rintro (⟨t, ht, hn⟩ | ⟨e, he, hn⟩)
    · rcases List.mem_append.1 ht with ht | ht
      · obtain ⟨k, hk⟩ := Table.mem_toList_iff.1 ht
        exact .inl (.inr ⟨k, t, hk, hn⟩)
      · obtain ⟨x, hx, ht⟩ := List.mem_flatMap.1 ht
        exact .inr ⟨x, hx, Work.mem_named.2 (.inl ⟨t, ht, hn⟩)⟩
    · rcases List.mem_append.1 he with he | he
      · obtain ⟨k, hk⟩ := Table.mem_toList_iff.1 he
        exact .inl (.inl ⟨k, e, hk, hn⟩)
      · obtain ⟨x, hx, he⟩ := List.mem_flatMap.1 he
        exact .inr ⟨x, hx, Work.mem_named.2 (.inr ⟨e, he, hn⟩)⟩
  · rintro ((⟨k, e, hk, hn⟩ | ⟨k, t, hk, hn⟩) | ⟨x, hx, hn⟩)
    · exact .inr ⟨e, List.mem_append_left _ (Table.mem_toList_iff.2 ⟨k, hk⟩), hn⟩
    · exact .inl ⟨t, List.mem_append_left _ (Table.mem_toList_iff.2 ⟨k, hk⟩), hn⟩
    · rcases Work.mem_named.1 hn with ⟨t, ht, hn⟩ | ⟨e, he, hn⟩
      · exact .inl ⟨t, List.mem_append_right _ (List.mem_flatMap.2 ⟨x, hx, ht⟩), hn⟩
      · exact .inr ⟨e, List.mem_append_right _ (List.mem_flatMap.2 ⟨x, hx, he⟩), hn⟩

/-- **What keeps an account from being deleted.** -/
theorem Anchored.referenced_iff (h : b.Anchored) {r : Row} (hr : b.accounts.get? a = some r) :
    b.isReferenced a = true ∨ 0 < r.pins ↔ b.Names a ∨ b.Stranded a := by
  rw [isReferenced_iff, h.pins hr, List.count_pos_iff, h.mem_pinned_iff, names_iff, or_assoc]

/-! ## The deletion of a row that nobody has locked -/

/-- **What the deletion of an account comes to,** from one bank to another: it fails if a row names
the account or the account is stranded, and otherwise removes the row and nothing else. -/
structure Decides (b : Bank) (a : Int) (answer : Except LedgerError Bool) (b' : Bank) : Prop where
  missing : answer = .ok false ↔ b.accounts.contains a = false
  deleted : answer = .ok true ↔ b.accounts.contains a = true ∧ ¬ b.Names a ∧ ¬ b.Stranded a
  referenced : answer = .error (.constraintViolation (.accountReferenced a)) ↔
    b.accounts.contains a = true ∧ (b.Names a ∨ b.Stranded a)
  removed : answer = .ok true → b' = { b with accounts := b.accounts.erase a }
  unchanged : answer ≠ .ok true → b' = b

/-- A lock that was taken on a free row and given back. -/
theorem release_taken (hl : b.locks.get? a = none) (accounts : Table Row) (o : Owner) :
    ({ b with locks := b.locks.insert a ⟨o, []⟩, accounts } : Bank).release a =
      { b with accounts } := by
  have hlocks : ((b.locks.insert a ⟨o, []⟩).collect fun k l => if k = a then l.next? else some l) =
      b.locks := by
    apply Table.ext
    intro k
    rw [Table.get?_collect, Table.get?_insert]
    by_cases hk : k = a
    · subst hk
      simp [hl, Lock.next?]
    · cases b.locks.get? k <;> simp [hk]
  rw [release_with, hlocks]

/-- **Deleting an account whose row nobody has locked** has an answer at once. -/
theorem Sound.decides (h : b.Sound awaits) (ho : ¬ b.IsOpen o) (hidle : awaits o = none)
    (hfree : b.Unlocked a) : ∃ answer b', b.deleteAccount o a = (some answer, b') ∧
      b.Decides a answer b' := by
  unfold deleteAccount
  by_cases ha : b.accounts.contains a = true
  · have hl := hfree ha
    obtain ⟨r, hr⟩ := Table.contains_iff.1 ha
    have hiff := h.anchored.referenced_iff hr
    have hsame := release_taken hl b.accounts o
    rw [acquire_of_free hl ha]
    dsimp only
    rw [hr]
    dsimp only
    by_cases hnamed : b.isReferenced a = true ∨ 0 < r.pins
    · refine ⟨_, _, if_pos hnamed, ?_⟩
      have hstays := hiff.1 hnamed
      exact
        { missing := by simp [ha]
          deleted := by simpa [ha] using fun hn => hstays.resolve_left hn
          referenced := by simpa [ha] using hstays
          removed := nofun
          unchanged := fun _ => hsame }
    · refine ⟨_, _, if_neg hnamed, ?_⟩
      have hgoes := not_or.1 (hiff.not.1 hnamed)
      exact
        { missing := by simp [ha]
          deleted := by simpa [ha] using hgoes
          referenced := by simpa [ha] using hgoes
          removed := fun _ => release_taken hl (b.accounts.erase a) o
          unchanged := fun hne => absurd rfl hne }
  · have hmissing : b.acquire o a = (.missing, b) := by
      rcases b.acquire_cases o a with ⟨-, hc, -⟩ | ⟨-, -, heq⟩ | ⟨l, hl, hcase⟩
      · exact absurd hc ha
      · exact heq
      · -- Somebody who waited for a row that was deleted may still have its lock.
        obtain ⟨hh, hw⟩ := h.not_locking ho hidle hl
        simpa [hh, hw, ha] using hcase
    rw [hmissing]
    have hnone : b.accounts.contains a = false := by simpa using ha
    exact ⟨_, _, rfl,
      { missing := by simp [hnone]
        deleted := by simp [hnone]
        referenced := by simp [hnone]
        removed := nofun
        unchanged := fun _ => rfl }⟩

/-! ## Where stranded accounts come from -/

theorem pinned_addPin (ho : b.IsOpen o) (a : Int) :
    ((b.addPin o a).work o).pinned = (b.work o).pinned ++ [a] := by
  rw [work_addPin a ho, update_self]

theorem pinned_modifyWork (ho : b.IsOpen o) {f : Work → Work}
    (hf : (f (b.work o)).pinned = (b.work o).pinned) :
    ((b.modifyWork o f).work o).pinned = (b.work o).pinned := by
  rw [work_modifyWork ho, update_self, hf]

theorem pinned_createTransfer (ho : b.IsOpen o) (n : NewTransfer) :
    ((b.createTransfer o n).2.work o).pinned =
      (b.work o).pinned ++ Exchange.pins ⟨.createTransfer n, (b.createTransfer o n).1⟩ := by
  rcases b.createTransfer_cases o n with ⟨hs, heq⟩ | ⟨hs, ht, heq⟩ | ⟨-, -, t, rfl, heq⟩
  · rw [heq]
    have hnone : ¬ (n.source ≠ n.target ∧ n.source = n.target) := fun h => h.1 h.2
    simp [Exchange.pins, Exchange.stranded, Exchange.deeds, Deed.noted, hnone]
  · -- The source is pinned before the target is found missing.
    have hne : n.source ≠ n.target := fun e => ht (e ▸ hs)
    rw [heq, pinned_addPin ho]
    simp [Exchange.pins, Exchange.stranded, Exchange.deeds, Deed.noted, hne]
  · have ho₁ : (b.addPin o n.source).IsOpen o := by simpa using ho
    have ho₂ : ((b.addPin o n.source).addPin o n.target).IsOpen o := by simpa using ho
    have hstage : ((((b.addPin o n.source).addPin o n.target).stageTransfer o
        ⟨b.nextTransfer, n.source, n.target, n.amount, b.clock⟩).work o).pinned =
          (((b.addPin o n.source).addPin o n.target).work o).pinned :=
      pinned_modifyWork (b := { (b.addPin o n.source).addPin o n.target with
        nextTransfer := b.nextTransfer + 1 }) ho₂ rfl
    rw [heq, hstage, pinned_addPin ho₁, pinned_addPin ho]
    simp [Exchange.pins, Exchange.stranded, Exchange.deeds, Deed.noted, Deed.named]

theorem pinned_createEntry (ho : b.IsOpen o) (n : NewEntry) :
    ((b.createEntry o n).2.work o).pinned =
      (b.work o).pinned ++ Exchange.pins ⟨.createEntry n, (b.createEntry o n).1⟩ := by
  rcases b.createEntry_cases o n with ⟨-, heq⟩ | ⟨-, e, rfl, heq⟩
  · rw [heq]
    simp [Exchange.pins, Exchange.stranded, Exchange.deeds, Deed.noted]
  · have ho₁ : (b.addPin o n.account).IsOpen o := by simpa using ho
    have hstage : (((b.addPin o n.account).stageEntry o
        ⟨b.nextEntry, n.account, n.amount, b.clock⟩).work o).pinned =
          ((b.addPin o n.account).work o).pinned :=
      pinned_modifyWork (b := { b.addPin o n.account with nextEntry := b.nextEntry + 1 }) ho₁ rfl
    rw [heq, hstage, pinned_addPin ho]
    simp [Exchange.pins, Exchange.stranded, Exchange.deeds, Deed.noted, Deed.named]

theorem Sound.pinned_addBalance (h : b.Sound awaits) (ho : b.IsOpen o)
    (ha : awaits o = none ∨ awaits o = some a) (delta : Int) :
    ((b.addBalance o a delta).2.work o).pinned = (b.work o).pinned := by
  have hwork : ∀ {b' : Bank}, (b'.adjust a delta).2.work o = b'.work o := by
    intro b'
    unfold Bank.work Bank.work?
    rw [adjust_works]
  rcases h.addBalance_cases ho ha delta with ⟨locks, heq, -⟩ | ⟨locks, heq, -⟩ |
    ⟨b', heq, -, -, -, -, rfl | ⟨-, r, hr, -, locks, rfl⟩⟩
  · rw [heq]
    rfl
  · rw [heq]
    rfl
  · rw [heq, hwork]
  · have ho' : ({ b with locks } : Bank).IsOpen o := ho
    have hr' : ({ b with locks } : Bank).accounts.get? a = some r := hr
    rw [heq, hwork, hold_eq hr']
    exact pinned_modifyWork (b := { b with locks }) ho' rfl

theorem work_commit (ho : b.IsOpen o) (hn : (b.heldBy o).Nodup) :
    (b.commit o).work = update b.work o {} := by
  rw [commit_eq_closed ho hn, work_closed]

end Bank

namespace Hall

variable {h : Hall} {o p : Owner} {c : Call} {m : Move} {a : Int}

/-- Whether a move leaves every unit of work as it is. -/
def Spares (h h' : Hall) : Prop := h'.bank.works = h.bank.works ∧ h'.log = h.log

/-- Only calls and drops touch units of work. -/
theorem Sound.spares (h₀ : h.Sound) (hcall : ∀ o c, m ≠ .call o c) (hdrop : ∀ o, m ≠ .drop o) :
    h.Spares (h.after m) := by
  cases m with
  | call o c => exact absurd rfl (hcall o c)
  | leave o =>
      refine ⟨?_, log_leave h o⟩
      show (h.leave o).bank.works = h.bank.works
      unfold Hall.leave
      cases ha : h.awaits o with
      | none => rfl
      | some a =>
          obtain ⟨-, ⟨locks, hlocks⟩, -⟩ := h₀.bank.abandon ha
          dsimp only
          rw [hlocks]
  | drop o => exact absurd rfl (hdrop o)
  | createAccount n =>
      refine ⟨?_, rfl⟩
      show (h.bank.createAccount n).2.works = h.bank.works
      rcases h.bank.createAccount_cases n with ⟨-, -, heq⟩ | ⟨-, account, -, heq⟩
      · rw [heq]
      · rw [heq]
  | updateAccount number account balance =>
      by_cases hm : h.MayState number account
      · rw [after_updateAccount hm]
        refine ⟨?_, rfl⟩
        show (h.bank.updateAccount (.call number) account balance).2.works = h.bank.works
        rcases h₀.bank.updateAccount_cases (Bank.heldBy_of_not_isOpen hm.1) hm.2 balance with
          ⟨locks, ⟨heq, -⟩ | ⟨answer, heq, -⟩ | ⟨r, -, -, -, heq, -⟩⟩
        · rw [heq]
        · rw [heq]
        · rw [heq]
      · rw [show h.after (.updateAccount number account balance) = h from if_neg hm]
        exact ⟨rfl, rfl⟩
  | deleteAccount number account =>
      by_cases hm : h.MayState number account
      · rw [after_deleteAccount hm]
        refine ⟨?_, rfl⟩
        show (h.bank.deleteAccount (.call number) account).2.works = h.bank.works
        rcases h₀.bank.deleteAccount_cases (Bank.heldBy_of_not_isOpen hm.1) hm.2 with
          ⟨locks, ⟨heq, -⟩ | ⟨answer, heq, -⟩ | ⟨-, -, -, heq, -⟩⟩
        · rw [heq]
        · rw [heq]
        · rw [heq]
      · rw [show h.after (.deleteAccount number account) = h from if_neg hm]
        exact ⟨rfl, rfl⟩
  | tick now => exact ⟨rfl, rfl⟩

/-- A call does not touch the units of work of others. -/
theorem Sound.work_call (h₀ : h.Sound) (hc : h.MayCall o c) (hp : p ≠ o) :
    (h.call o c).bank.work p = h.bank.work p := by
  have hb := h₀.bank
  cases c with
  | begin => exact (Bank.within_begin h.bank o).work hp
  | createTransfer n => exact (hb.createTransfer (hc.1.2 (by simp)) n).2.1.work hp
  | createEntry n => exact (hb.createEntry (hc.1.2 (by simp)) n).2.1.work hp
  | addBalance account delta => exact (hb.addBalance (hc.1.2 (by simp)) hc.2 delta).1.work hp
  | commit =>
      show (h.bank.commit o).work p = h.bank.work p
      rw [Bank.work_commit (hc.1.2 (by simp)) (hb.locking.once o), update_of_ne hp]
  | rollback => exact hb.within_rollback.work hp

/-- Each unit of work has pinned what its calls pinned. -/
def PinsLogged (h : Hall) : Prop :=
  ∀ o, (h.bank.work o).pinned = (h.log o).flatMap Exchange.pins

/-- A unit of work that has ended has pinned nothing. -/
theorem Sound.pinned_of_closed (h₀ : h.Sound) (ho : ¬ h.bank.IsOpen o) :
    (h.bank.work o).pinned = (h.log o).flatMap Exchange.pins := by
  rw [Bank.work_of_not_isOpen ho, h₀.closed ho]
  rfl

/-- **A call pins what it says.** -/
theorem PinsLogged.call (hp : h.PinsLogged) (h₀ : h.Sound) (hc : h.MayCall o c)
    (ho : (h.call o c).bank.IsOpen o) :
    ((h.call o c).bank.work o).pinned = ((h.call o c).log o).flatMap Exchange.pins := by
  have hb := h₀.bank
  rw [log_call_self h o c ho, List.flatMap_append, ← hp o]
  cases c with
  | begin =>
      show ((h.bank.begin o).work o).pinned = _ ++ []
      rw [Bank.work_begin, List.append_nil]
  | createTransfer n =>
      have hopen := hc.1.2 (by simp)
      exact (Bank.pinned_createTransfer hopen n).trans (congrArg _ (List.append_nil _).symm)
  | createEntry n =>
      have hopen := hc.1.2 (by simp)
      exact (Bank.pinned_createEntry hopen n).trans (congrArg _ (List.append_nil _).symm)
  | addBalance account delta =>
      have hopen := hc.1.2 (by simp)
      refine (hb.pinned_addBalance hopen hc.2 delta).trans ?_
      have hnone : ∀ answer, Exchange.pins ⟨.addBalance account delta, answer⟩ = [] := by
        rintro (e | x) <;> rfl
      cases ((Bank.store o).perform (.addBalance account delta) h.bank).1 with
      | none => simp
      | some answer => simp [hnone]
  | commit => exact absurd ho (Bank.not_isOpen_commit hb (hc.1.2 (by simp)))
  | rollback => exact absurd ho (Bank.not_isOpen_rollback hb)

/-- **Every move keeps the pins in step with the log.** -/
theorem PinsLogged.after (hp : h.PinsLogged) (h₀ : h.Sound) (m : Move) :
    (h.after m).PinsLogged := by
  intro p
  by_cases hopen : (h.after m).bank.IsOpen p
  swap
  · exact (h₀.after m).pinned_of_closed hopen
  have spared : h.Spares (h.after m) →
      ((h.after m).bank.work p).pinned = ((h.after m).log p).flatMap Exchange.pins := by
    rintro ⟨hworks, hlog⟩
    have hwork : (h.after m).bank.work p = h.bank.work p := by
      unfold Bank.work Bank.work?
      rw [hworks]
    rw [hwork, hlog]
    exact hp p
  cases m with
  | call o c =>
      by_cases hc : h.MayCall o c
      · rw [after_call hc] at hopen ⊢
        by_cases hpo : p = o
        · subst hpo
          exact hp.call h₀ hc hopen
        · have hlog : (h.call o c).log p = h.log p := update_of_ne hpo _ _
          rw [h₀.work_call hc hpo, hlog]
          exact hp p
      · rw [show h.after (.call o c) = h from if_neg hc]
        exact hp p
  | drop o =>
      have hpo : p ≠ o := by
        rintro rfl
        exact Bank.not_isOpen_rollback (h₀.leave p).bank hopen
      have hwithin := (h₀.within_leave o).trans (h₀.leave o).bank.within_rollback
      have hlog : (h.drop o).log p = h.log p := update_of_ne hpo _ _
      show ((h.drop o).bank.work p).pinned = ((h.drop o).log p).flatMap Exchange.pins
      rw [hlog, ← hp p]
      exact congrArg Work.pinned (hwithin.work hpo)
  | leave o => exact spared (h₀.spares (by simp) (by simp))
  | createAccount n => exact spared (h₀.spares (by simp) (by simp))
  | updateAccount number account balance => exact spared (h₀.spares (by simp) (by simp))
  | deleteAccount number account => exact spared (h₀.spares (by simp) (by simp))
  | tick now => exact spared (h₀.spares (by simp) (by simp))

theorem PinsLogged.afterAll (hp : h.PinsLogged) (h₀ : h.Sound) (ms : List Move) :
    (h.afterAll ms).PinsLogged := by
  induction ms generalizing h with
  | nil => exact hp
  | cons m ms ih => exact ih (hp.after h₀ m) (h₀.after m)

/-- The deeds of a unit of work name the accounts that its staged rows name. -/
theorem count_named {w : Work} {ds : List Deed} (ht : w.transfers = ds.filterMap Deed.transfer?)
    (he : w.entries = ds.filterMap Deed.entry?) (a : Int) :
    w.named.count a = (ds.flatMap Deed.named).count a := by
  unfold Work.named
  rw [ht, he, List.count_append]
  clear ht he
  induction ds with
  | nil => rfl
  | cons d ds ih =>
      rw [List.flatMap_cons, List.count_append, ← ih]
      cases d with
      | transfer t =>
          have hcons : (Deed.transfer t :: ds).filterMap Deed.transfer? =
            t :: ds.filterMap Deed.transfer? := rfl
          rw [hcons, List.flatMap_cons, List.count_append, Nat.add_assoc]
          rfl
      | entry e =>
          have hskip : (Deed.entry e :: ds).filterMap Deed.transfer? =
            ds.filterMap Deed.transfer? := rfl
          have hcons : (Deed.entry e :: ds).filterMap Deed.entry? =
            e :: ds.filterMap Deed.entry? := rfl
          rw [hskip, hcons, List.map_cons, List.count_cons, Deed.named, List.count_singleton]
          omega
      | adjustment b delta answer => exact (Nat.zero_add _).symm

theorem count_pins (xs : List Exchange) (a : Int) : (xs.flatMap Exchange.pins).count a =
    ((xs.flatMap Exchange.deeds).flatMap Deed.named).count a +
      (xs.flatMap Exchange.stranded).count a := by
  induction xs with
  | nil => rfl
  | cons x xs ih =>
      simp only [List.flatMap_cons, List.flatMap_append, List.count_append, Exchange.pins, ih]
      omega

/-- An open unit of work recorded a transfer from an account in vain, because the target did not
exist. -/
def Stranding (h : Hall) (a : Int) : Prop :=
  ∃ o n, .lost (.createTransfer n) (.constraintViolation (.missingAccount .transfer n.target)) ∈
    h.log o ∧ n.source ≠ n.target ∧ n.source = a

/-- **An account is stranded by a transfer that was not recorded,** and by nothing else. -/
theorem Sound.stranded_iff (h₀ : h.Sound) (hp : h.PinsLogged) :
    h.bank.Stranded a ↔ h.Stranding a := by
  -- Of the pins of a unit of work, those that no staged row accounts for.
  have hcount : ∀ {o}, h.bank.IsOpen o → (h.bank.work o).pinned.count a =
      (h.bank.work o).named.count a + ((h.log o).flatMap Exchange.stranded).count a := by
    intro o ho
    have hr := h₀.reflects ho
    rw [hp o, count_pins, count_named hr.transfers hr.entries]
    rfl
  constructor
  · rintro ⟨x, hx, hlt⟩
    obtain ⟨ho, hwork⟩ := h₀.bank.anchored.work_of_mem hx
    rw [← hwork, hcount ho] at hlt
    have hmem : a ∈ (h.log x.1).flatMap Exchange.stranded := List.count_pos_iff.1 (by omega)
    obtain ⟨y, hy, ha⟩ := List.mem_flatMap.1 hmem
    obtain ⟨n, rfl, hne, hsource⟩ := Exchange.mem_stranded.1 ha
    exact ⟨x.1, n, hy, hne, hsource⟩
  · rintro ⟨o, n, hmem, hne, hsource⟩
    have ho : h.bank.IsOpen o := by
      by_contra hclosed
      rw [h₀.closed hclosed] at hmem
      cases hmem
    obtain ⟨l, r, hworks, -⟩ := List.lookup_eq_some_iff.1 (Bank.work?_of_isOpen ho)
    have hstranded : a ∈ (h.log o).flatMap Exchange.stranded :=
      List.mem_flatMap.2 ⟨_, hmem, Exchange.mem_stranded.2 ⟨n, rfl, hne, hsource⟩⟩
    have hpos := List.count_pos_iff.2 hstranded
    have hsum := hcount ho
    exact ⟨(o, h.bank.work o), by rw [hworks]; simp, by dsimp only; omega⟩

/-- The pins are in step with the log after any moves. -/
theorem pinsLogged_run (nonNegative : Bool) (ms : List Move) :
    ((opening nonNegative).afterAll ms).PinsLogged := by
  have hopening : (opening nonNegative).PinsLogged := fun _ => rfl
  exact hopening.afterAll (sound_opening nonNegative) ms

/-- **Which accounts can be deleted,** as long as nobody has locked their rows: call by call, with
anything in flight, and at every desk. The answer comes at once. It is that there is no such
account, that a committed or staged row names it or that it is stranded, or that its row is removed,
and nothing else with it; only a transfer that was not recorded can have stranded it. -/
theorem deletion_run (nonNegative : Bool) :
    (∀ ms number a, ∀ h : Hall, h = (opening nonNegative).afterAll ms →
      h.bank.Unlocked a → ¬ h.bank.IsOpen (.call number) → h.awaits (.call number) = none →
      (h.bank.Stranded a ↔ h.Stranding a) ∧ ∃ answer b',
        h.bank.deleteAccount (.call number) a = (some answer, b') ∧ h.bank.Decides a answer b' ∧
        h.after (.deleteAccount number a) = { h with bank := b' }) ∧
    ∀ es a, ∀ d : Desk, d = (Desk.opening nonNegative).afterAll es → d.bank.Unlocked a →
      ∃ answer b', d.submit (.deleteAccount a) =
          (.reply (.of .flag answer), { d with bank := b', next := d.next + 1 }) ∧
        d.bank.Decides a answer b' := by
  constructor
  · rintro ms number a h rfl hfree hclosed hidle
    have h₀ := sound_run nonNegative ms
    obtain ⟨answer, b', heq, hdecides⟩ := h₀.bank.decides hclosed hidle hfree
    refine ⟨h₀.stranded_iff (pinsLogged_run nonNegative ms), answer, b', heq, hdecides, ?_⟩
    rw [after_deleteAccount ⟨hclosed, .inl hidle⟩, heq]
    unfold state
    dsimp only
    rw [Option.isNone_some, if_neg (by simp), ← hidle, update_eq_self]
  · rintro es a d rfl hfree
    have hreachable : Desk.Reachable nonNegative ((Desk.opening nonNegative).afterAll es) :=
      Desk.Reachable.opening.afterAll es
    have hd := hreachable.sound
    obtain ⟨answer, b', heq, hdecides⟩ := hd.bank.decides hd.closed_of_new hd.awaits_next hfree
    refine ⟨answer, b', ?_, hdecides⟩
    have hproceed : (Request.deleteAccount a).proceed
        ((Desk.opening nonNegative).afterAll es).next
        ((Desk.opening nonNegative).afterAll es).bank =
          (some (.of .flag answer), .deleteAccount a, b') := by
      unfold Request.proceed
      dsimp only
      rw [heq]
      rfl
    have hcall := hd.call_answered hproceed
    cases answer <;> exact hcall

/-- An open unit of work has staged a transfer from account 1 to account 2 and could not record one
from account 3. Accounts 3 and 4 are both free of rows that name them. -/
theorem deletion_run_strands :
    let moves : List Move := [.createAccount ⟨"a", 100, .usd⟩, .createAccount ⟨"b", 50, .usd⟩,
      .createAccount ⟨"c", 20, .usd⟩, .createAccount ⟨"d", 0, .usd⟩, .call (.unit "u") .begin,
      .call (.unit "u") (.createTransfer ⟨1, 2, 5⟩), .call (.unit "u") (.createTransfer ⟨3, 9, 5⟩)]
    let events : List Event := [.command (.createAccount ⟨"a", 100, .usd⟩),
      .command (.createAccount ⟨"b", 50, .usd⟩), .command (.createAccount ⟨"c", 20, .usd⟩),
      .command (.begin "u"), .command (.onUnit "u" (.createTransfer ⟨1, 2, 5⟩)),
      .command (.onUnit "u" (.createTransfer ⟨3, 9, 5⟩))]
    let h := (opening true).afterAll moves
    let d := (Desk.opening true).afterAll events
    ((h.bank.Unlocked 4 ∧ ¬ h.bank.IsOpen (.call 0) ∧ h.awaits (.call 0) = none) ∧
      (h.bank.Stranded 4 ↔ h.Stranding 4) ∧ ∃ answer b',
        h.bank.deleteAccount (.call 0) 4 = (some answer, b') ∧ h.bank.Decides 4 answer b' ∧
        h.after (.deleteAccount 0 4) = { h with bank := b' }) ∧
    d.bank.Unlocked 3 ∧ ∃ answer b', d.submit (.deleteAccount 3) =
        (.reply (.of .flag answer), { d with bank := b', next := d.next + 1 }) ∧
      d.bank.Decides 3 answer b' := by
  intro moves events h d
  have hfree : h.bank.Unlocked 4 := by decide +kernel
  have hclosed : ¬ h.bank.IsOpen (.call 0) := by decide +kernel
  have hidle : h.awaits (.call 0) = none := by decide +kernel
  have hfree' : d.bank.Unlocked 3 := by decide +kernel
  exact ⟨⟨⟨hfree, hclosed, hidle⟩, (deletion_run true).1 moves 0 4 h rfl hfree hclosed hidle⟩,
    hfree', (deletion_run true).2 events 3 d rfl hfree'⟩

/-- **A transfer that was not recorded keeps its source from being deleted,** although it staged
nothing and no row names the account. -/
theorem deletion_of_unnamed_fails :
    let d := (Desk.opening true).afterAll [.command (.createAccount ⟨"a", 100, .usd⟩),
      .command (.begin "u"), .command (.onUnit "u" (.createTransfer ⟨1, 2, 5⟩))]
    d.Reachable true ∧ d.bank.Unlocked 1 ∧ d.bank.accounts.contains 1 = true ∧ ¬ d.bank.Names 1 ∧
      (d.submit (.deleteAccount 1)).1 =
        .reply (.failed (.constraintViolation (.accountReferenced 1))) := by
  intro d
  exact ⟨Desk.Reachable.opening.afterAll _, by decide +kernel, by decide +kernel,
    by decide +kernel, by decide +kernel⟩

end Hall

end DoubleEntry
