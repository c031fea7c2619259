import DoubleEntry.Proofs.Publication
import DoubleEntry.Proofs.Readers
set_option autoImplicit false

/-! # Readers beside a commit

With several threads a commit is not a single step. A `Board` is a hall whose commits write one row
after the other, and whose readers come and go: between two rows anything may happen that does not
need the visibility, and the two counts may be read. Each board is explained by the hall that the
calls so far have led to (`Board.Tracks`), a commit being a call that takes place with its last row.
A reader that is inside sees this hall (`Board.Reading`), and so never a part of a commit; the
counts, which are read from outside, do show how far the commit has come.
-/

namespace DoubleEntry

open Function (update)

/-! ## Steady banks -/

namespace Bank

/-- **Nothing is missing, and nothing is different.** There may be more accounts. -/
structure Steady (b b' : Bank) : Prop where
  transfers : b'.transfers = b.transfers
  entries : b'.entries = b.entries
  account : ∀ {a x}, b.getAccount a = some x → b'.getAccount a = some x

variable {b b' : Bank} {o : Owner} {ps : List Posting}

theorem Steady.refl (b : Bank) : b.Steady b := ⟨rfl, rfl, id⟩

theorem Steady.trans {b'' : Bank} (h : b.Steady b') (h' : b'.Steady b'') : b.Steady b'' :=
  ⟨h'.transfers.trans h.transfers, h'.entries.trans h.entries, fun ha => h'.account (h.account ha)⟩

theorem Steady.of_ledger (h : b'.ledger = b.ledger) : b.Steady b' where
  transfers := congrArg Ledger.transfers h
  entries := congrArg Ledger.entries h
  account ha := by
    rw [getAccount_eq] at ha ⊢
    rwa [h]

/-- What a bank shows of an account when rows are written. -/
theorem get?_ledger_postAll (b : Bank) (ps : List Posting) (a : Int) :
    (b.postAll ps).ledger.accounts.get? a = (b.accounts.get? a).map fun r =>
      if a ∈ ps.filterMap Posting.account? then r.working else r.committed := by
  rw [get?_ledger, postAll_eq]
  dsimp only
  rw [Table.get?_collect]
  cases b.accounts.get? a with
  | none => rfl
  | some r => by_cases ha : a ∈ ps.filterMap Posting.account? <;> simp [ha]

/-- **Written rows are shown.** A bank that shows what was written elsewhere is one where the same
was written, as long as the working copies are the same. -/
theorem Steady.showing_eq (h : b.Steady b')
    (hrows : ∀ a ∈ ps.filterMap Posting.account?,
      (b'.accounts.get? a).map Row.working = (b.accounts.get? a).map Row.working) :
    b'.showing (b.postAll ps).ledger = b'.postAll ps := by
  have htransfers : (b.postAll ps).ledger.transfers = (b'.postAll ps).transfers := by
    rw [postAll_eq, postAll_eq, h.transfers]
    rfl
  have hentries : (b.postAll ps).ledger.entries = (b'.postAll ps).entries := by
    rw [postAll_eq, postAll_eq, h.entries]
    rfl
  have haccounts : (b'.showing (b.postAll ps).ledger).accounts = (b'.postAll ps).accounts := by
    rw [postAll_eq b']
    apply Table.ext
    intro a
    rw [get?_showing, get?_ledger_postAll, Table.get?_collect]
    cases hr' : b'.accounts.get? a with
    | none => rfl
    | some r' =>
        rw [Option.map_some, Option.bind_some]
        by_cases ha : a ∈ ps.filterMap Posting.account?
        · have hworking := hrows a ha
          rw [hr', Option.map_some, eq_comm, Option.map_eq_some_iff] at hworking
          obtain ⟨r, hr, hsame⟩ := hworking
          rw [hr, if_pos ha, Option.map_some, if_pos ha, hsame]
          rfl
        · rw [if_neg ha]
          cases hr : b.accounts.get? a with
          | none => rfl
          | some r =>
              -- The row was there already, so it shows what it showed.
              have hx : b.getAccount a = some r.committed := congrArg (Option.map _) hr
              have hx' := h.account hx
              unfold getAccount at hx'
              rw [hr', Option.map_some] at hx'
              rw [Option.map_some, if_neg ha, Option.getD_some, ← Option.some.inj hx']
  calc b'.showing (b.postAll ps).ledger
      = { b'.showing (b.postAll ps).ledger with
          accounts := (b'.postAll ps).accounts
          entries := (b'.postAll ps).entries
          transfers := (b'.postAll ps).transfers } := by
        rw [← haccounts, ← hentries, ← htransfers]
        rfl
    _ = b'.postAll ps := by
        rw [postAll_eq b']
        rfl

end Bank

namespace Hall

/-- A hall after a row was written. -/
def post (h : Hall) (p : Posting) : Hall := { h with bank := h.bank.post p }

/-- A hall after rows were written, one after the other. -/
def postAll (h : Hall) (ps : List Posting) : Hall := { h with bank := h.bank.postAll ps }

variable {h : Hall} {m : Move} {o : Owner}

theorem postAll_concat (h : Hall) (ps : List Posting) (p : Posting) :
    h.postAll (ps ++ [p]) = (h.postAll ps).post p := by
  unfold postAll post
  rw [Bank.postAll_concat]

theorem showing_postAll (h : Hall) (ps : List Posting) :
    h.showing (h.bank.postAll ps).ledger = h.postAll ps := by
  unfold showing postAll
  rw [(Bank.Steady.refl h.bank).showing_eq fun _ _ => rfl]

/-- What does not take the visibility is not to be seen, unless an account is opened. -/
theorem hides_of_takesVisibility (hm : h.takesVisibility m = false)
    (hne : ∀ n, m ≠ .createAccount n) : h.Hides m := by
  cases m with
  | call o c => exact .call o (of_decide_eq_false hm)
  | leave o => exact .leave o
  | drop o => exact .drop o
  | createAccount n => exact absurd rfl (hne n)
  | updateAccount number account balance =>
      exact .updateAccount (takesVisibility_updateAccount.1 hm)
  | deleteAccount number account =>
      refine .deleteAccount fun htrue => ?_
      rcases takesVisibility_deleteAccount.1 hm with hnone | hfalse
      · cases hnone.symm.trans htrue
      · cases hfalse.symm.trans htrue
  | tick now => exact .tick now

theorem Sound.steady_createAccount (h₀ : h.Sound) (n : NewAccount) :
    h.bank.Steady (h.bank.createAccount n).2 := by
  rcases h.bank.createAccount_cases n with ⟨-, -, heq⟩ | ⟨-, account, -, heq⟩
  · rw [heq]
    exact ⟨rfl, rfl, id⟩
  · rw [heq]
    refine ⟨rfl, rfl, fun {a x} ha => ?_⟩
    unfold Bank.getAccount at ha ⊢
    have hne : a ≠ h.bank.nextAccount := by
      rintro rfl
      rw [h₀.fresh.nextAccount] at ha
      cases ha
    dsimp only
    rwa [Table.get?_insert, if_neg hne]

/-- **What does not take the visibility changes nothing that is to be seen,** but that there may be
an account more. -/
theorem Sound.steady (h₀ : h.Sound) (hm : h.takesVisibility m = false) :
    h.bank.Steady (h.after m).bank := by
  by_cases hopening : ∃ n, m = .createAccount n
  · obtain ⟨n, rfl⟩ := hopening
    exact h₀.steady_createAccount n
  · have hhides := hides_of_takesVisibility hm fun n hn => hopening ⟨n, hn⟩
    have hledger := (h₀.brings m).ledger
    rw [hhides.effects] at hledger
    exact .of_ledger hledger

/-- **In the middle of a commit** nobody else notices it, who does not need the visibility. -/
theorem Sound.after_postAll (h₀ : h.Sound) {ps : List Posting}
    (hps : ∀ a ∈ ps.filterMap Posting.account?, a ∈ h.bank.heldBy o) (hactor : m.actor? ≠ some o)
    (hm : (h.postAll ps).takesVisibility m = false) :
    (h.postAll ps).after m = (h.after m).postAll ps ∧ h.takesVisibility m = false := by
  have hnew : (h.bank.postAll ps).ledger.accounts.get? h.bank.nextAccount = none := by
    rw [Bank.get?_ledger_postAll, h₀.fresh.nextAccount]
    rfl
  rw [← h.showing_postAll ps] at hm ⊢
  obtain ⟨hafter, hkept⟩ := after_showing hm hnew
  refine ⟨?_, hkept⟩
  rw [hafter]
  -- What the commit writes of accounts are the working copies of rows that nobody else changes.
  have hkeeps := (h₀.brings m).keeps hactor
  have hrows : ∀ a ∈ ps.filterMap Posting.account?,
      ((h.after m).bank.accounts.get? a).map Row.working =
        (h.bank.accounts.get? a).map Row.working := by
    intro a ha
    have hversions := congrArg (Option.map Prod.snd) (hkeeps.versions a (hps a ha))
    rwa [Option.map_map, Option.map_map] at hversions
  unfold showing postAll
  rw [(h₀.steady hkept).showing_eq hrows]

/-- A commit that can be made can still be made after what others do. -/
theorem Sound.mayCall_commit (h₀ : h.Sound) (hc : h.MayCall o .commit)
    (hactor : m.actor? ≠ some o) : (h.after m).MayCall o .commit := by
  obtain ⟨hopen, hidle⟩ := hc
  refine ⟨?_, ?_⟩
  · rw [((h₀.brings m).keeps hactor).isOpen]
    exact hopen
  · rw [awaits_after hactor]
    exact hidle

/-- What a unit of work has to write does not depend on others. -/
theorem Sound.postings_after (h₀ : h.Sound) (hactor : m.actor? ≠ some o) :
    ((h.after m).bank.work o).postings = (h.bank.work o).postings := by
  have hkeeps := (h₀.brings m).keeps hactor
  unfold Work.postings
  rw [hkeeps.held, hkeeps.transfers, hkeeps.entries]

end Hall

/-! ## Boards -/

/-- A hall, and who holds the visibility of its bank. -/
structure Board where
  hall : Hall
  visibility : Visibility := .shared []

/-- The smallest things that happen to a board. -/
inductive Grain where
  /-- A move is made that is not a commit. -/
  | move (m : Move)
  /-- A reader comes in. -/
  | enter (reader : Nat)
  /-- A reader goes out. -/
  | exit (reader : Nat)
  /-- A commit takes the visibility. -/
  | commit (o : Owner)
  /-- The commit under way writes its next row, or ends when it has written all. -/
  | publish
  deriving DecidableEq, Repr

/-- Whether a move is a commit. -/
def Move.isCommit : Move → Bool
  | .call _ c => c = .commit
  | _ => false

namespace Visibility

/-- Whose commit is under way. -/
def publisher? : Visibility → Option Owner
  | .shared _ => none
  | .exclusive o _ => some o

/-- Who is inside. -/
def readers : Visibility → List Nat
  | .shared readers => readers
  | .exclusive _ _ => []

end Visibility

/-- A hall after a commit that has written its rows ended. -/
def Hall.conclude (h : Hall) (o : Owner) : Hall where
  bank := h.bank.conclude o
  awaits := update h.awaits o none
  log := update h.log o []

namespace Board

/-- A board without accounts. -/
def opening (nonNegative : Bool) : Board := { hall := .opening nonNegative }

/-- Whether a move can be made that is not a commit. What takes the visibility needs it for itself,
and nothing is done in a unit of work whose commit is under way. -/
def Admits (s : Board) (m : Move) : Prop :=
  m.isCommit = false ∧ (s.hall.takesVisibility m = true → s.visibility = .shared []) ∧
    ∀ o ∈ s.visibility.publisher?, m.actor? ≠ some o

instance (s : Board) (m : Move) : Decidable (s.Admits m) :=
  inferInstanceAs (Decidable (_ ∧ (_ → _) ∧ _))

/-- The board after what can happen. What cannot does not happen: it has to wait. -/
def after (s : Board) : Grain → Board
  | .move m => if s.Admits m then { s with hall := s.hall.after m } else s
  | .enter reader =>
      match s.visibility with
      | .shared readers => { s with visibility := .shared (reader :: readers) }
      | .exclusive _ _ => s
  | .exit reader =>
      match s.visibility with
      | .shared readers => { s with visibility := .shared (readers.erase reader) }
      | .exclusive _ _ => s
  | .commit o =>
      if s.visibility = .shared [] ∧ s.hall.MayCall o .commit then
        { s with visibility := .exclusive o (s.hall.bank.work o).postings }
      else s
  | .publish =>
      match s.visibility with
      | .shared _ => s
      | .exclusive o [] => { hall := s.hall.conclude o }
      | .exclusive o (p :: rest) => { hall := s.hall.post p, visibility := .exclusive o rest }

/-- The board after some grains, one after the other. -/
def afterAll (s : Board) (gs : List Grain) : Board := gs.foldl after s

/-- The number of transfers, read whoever holds the visibility. -/
def transferCount (s : Board) : Nat := s.hall.bank.transferCount

/-- The number of entries, read whoever holds the visibility. -/
def entryCount (s : Board) : Nat := s.hall.bank.entryCount

/-! ## The hall that explains a board -/

/-- The move that takes place with a grain: a commit with its end. -/
def moves (s : Board) : Grain → List Move
  | .move m => if s.Admits m then [m] else []
  | .publish =>
      match s.visibility with
      | .exclusive o [] => [.call o .commit]
      | _ => []
  | _ => []

/-- The moves that take place with some grains, one after the other. -/
def movesAll : Board → List Grain → List Move
  | _, [] => []
  | s, g :: gs => s.moves g ++ movesAll (s.after g) gs

/-- **The hall that explains a board:** the one that its readers see. A commit under way has written
the first of its rows. -/
inductive Tracks : Board → Hall → Prop
  | shared (h : Hall) (readers : List Nat) : Tracks ⟨h, .shared readers⟩ h
  | exclusive {h : Hall} {o : Owner} {written rest : List Posting} (hc : h.MayCall o .commit)
      (hrows : (h.bank.work o).postings = written ++ rest) :
      Tracks ⟨h.postAll written, .exclusive o rest⟩ h

variable {s : Board} {h : Hall} {o : Owner}

theorem after_move {m : Move} (hm : s.Admits m) :
    s.after (.move m) = { s with hall := s.hall.after m } := if_pos hm

theorem moves_move {m : Move} (hm : s.Admits m) : s.moves (.move m) = [m] := if_pos hm

theorem after_move_of_not {m : Move} (hm : ¬ s.Admits m) : s.after (.move m) = s := if_neg hm

theorem moves_move_of_not {m : Move} (hm : ¬ s.Admits m) : s.moves (.move m) = [] := if_neg hm

/-- A commit waits for the visibility. -/
theorem after_commit_of_not (hbusy : s.visibility ≠ .shared []) : s.after (.commit o) = s :=
  if_neg fun hfree => hbusy hfree.1

/-- The rows of accounts that a commit has written are locked by it. -/
theorem mem_heldBy_of_written {written rest : List Posting}
    (hrows : (h.bank.work o).postings = written ++ rest) {a : Int}
    (ha : a ∈ written.filterMap Posting.account?) : a ∈ h.bank.heldBy o := by
  have hlocked := (h.bank.work o).accounts_postings
  rw [hrows, List.filterMap_append] at hlocked
  unfold Bank.heldBy
  rw [← hlocked]
  exact List.mem_append_left _ ha

/-- A commit that has written all its rows, and ends, is the call. -/
theorem conclude_postAll (h₀ : h.Sound) (hc : h.MayCall o .commit) :
    (h.postAll (h.bank.work o).postings).conclude o =
      h.after (.call o .commit) := by
  have ho : h.bank.IsOpen o := hc.1.2 (by simp)
  have hclosed : ¬ (h.bank.commit o).IsOpen o := Bank.not_isOpen_commit h₀.bank ho
  rw [Hall.after_call hc]
  show Hall.mk ((h.bank.postAll _).conclude o) (update h.awaits o none) (update h.log o []) =
    Hall.mk (h.bank.commit o) (update h.awaits o none)
      (update h.log o (if (h.bank.commit o).IsOpen o then _ else []))
  rw [if_neg hclosed, Bank.commit_eq_conclude ho]

/-- A board that nobody writes to is explained after the next grain. -/
theorem tracks_after_shared (h : Hall) (readers : List Nat) (g : Grain) :
    (Board.after ⟨h, .shared readers⟩ g).Tracks
      (h.afterAll (Board.moves ⟨h, .shared readers⟩ g)) := by
  cases g with
  | move m =>
      by_cases hm : Admits ⟨h, .shared readers⟩ m
      · rw [after_move hm, moves_move hm]
        exact .shared _ _
      · rw [after_move_of_not hm, moves_move_of_not hm]
        exact .shared _ _
  | enter reader => exact .shared _ _
  | exit reader => exact .shared _ _
  | commit o =>
      show Tracks (if _ then _ else _) h
      split
      · next hfree =>
          have hrows : (h.bank.work o).postings = [] ++ (h.bank.work o).postings := rfl
          exact .exclusive hfree.2 hrows
      · exact .shared _ _
  | publish => exact .shared _ _

/-- So is one with a commit under way. Whoever else makes a move makes it as if the commit had not
begun, and does not change what it has written or has still to write. -/
theorem tracks_after_exclusive (h₀ : h.Sound) (hc : h.MayCall o .commit)
    {written rest : List Posting} (hrows : (h.bank.work o).postings = written ++ rest) (g : Grain) :
    (Board.after ⟨h.postAll written, .exclusive o rest⟩ g).Tracks
      (h.afterAll (Board.moves ⟨h.postAll written, .exclusive o rest⟩ g)) := by
  cases g with
  | move m =>
      by_cases hm : Admits ⟨h.postAll written, .exclusive o rest⟩ m
      · rw [after_move hm, moves_move hm]
        obtain ⟨-, hneeds, hothers⟩ := hm
        have hactor : m.actor? ≠ some o := hothers o rfl
        have hquiet : (h.postAll written).takesVisibility m = false := by
          by_contra hneeded
          cases hneeds (Bool.of_not_eq_false hneeded)
        have hlocked : ∀ a ∈ written.filterMap Posting.account?, a ∈ h.bank.heldBy o :=
          fun a => mem_heldBy_of_written hrows
        rw [(h₀.after_postAll hlocked hactor hquiet).1]
        exact .exclusive (h₀.mayCall_commit hc hactor) ((h₀.postings_after hactor).trans hrows)
      · rw [after_move_of_not hm, moves_move_of_not hm]
        exact .exclusive hc hrows
  | enter reader => exact .exclusive hc hrows
  | exit reader => exact .exclusive hc hrows
  | commit p =>
      rw [after_commit_of_not fun hfree => Visibility.noConfusion hfree]
      exact .exclusive hc hrows
  | publish =>
      cases rest with
      | nil =>
          rw [List.append_nil] at hrows
          show Tracks { hall := Hall.conclude _ o } (h.after (.call o .commit))
          rw [← hrows, conclude_postAll h₀ hc]
          exact .shared _ _
      | cons p rest =>
          have hnext := hrows.trans (List.append_cons written p rest)
          have ht := Tracks.exclusive hc hnext
          rw [Hall.postAll_concat] at ht
          exact ht

/-- **A grain is a move, or none:** a commit takes place with its end. -/
theorem Tracks.after (ht : s.Tracks h) (h₀ : h.Sound) (g : Grain) :
    (s.after g).Tracks (h.afterAll (s.moves g)) := by
  cases ht with
  | shared h readers => exact tracks_after_shared h readers g
  | exclusive hc hrows => exact tracks_after_exclusive h₀ hc hrows g

theorem Tracks.afterAll (ht : s.Tracks h) (h₀ : h.Sound) (gs : List Grain) :
    (s.afterAll gs).Tracks (h.afterAll (s.movesAll gs)) := by
  induction gs generalizing s h with
  | nil => exact ht
  | cons g gs ih =>
      have hnext := ih (ht.after h₀ g) (h₀.afterAll (s.moves g))
      unfold Hall.afterAll at hnext ⊢
      rw [← List.foldl_append] at hnext
      exact hnext

/-- **A reader stays inside** from one board to another, and what it sees stays the same, but that
it may see accounts that are opened meanwhile. -/
structure Stays (s : Board) (reader : Nat) (gs : List Grain) (s' : Board) : Prop where
  inside : reader ∈ s'.visibility.readers
  steady : s.hall.bank.Steady s'.hall.bank
  view : (∀ n, .move (.createAccount n) ∉ gs) → s'.hall.bank.view = s.hall.bank.view

end Board

end DoubleEntry
