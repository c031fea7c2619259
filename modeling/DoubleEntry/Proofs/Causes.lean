import DoubleEntry.Error
set_option autoImplicit false

/-! # A composite error is judged by what caused it

An error in which failures of rollbacks are kept is a tree: on one side of it stands the error that
caused a rollback, on the other how the rollback failed. The chain of sources follows the causes
down to the failure that everything began with (`LedgerError.origin`), and only that failure decides
whether the whole is transient. What failed in rollbacks matters neither for that nor for where the
chain ends: `LedgerError.replaceAt` puts something else there, and `LedgerError.judged_by_origin`
says what that changes. The text of the whole still shows all failures in it, from left to right.
-/

namespace DoubleEntry.LedgerError

/-! ## Composite errors as trees -/

/-- Two failures kept together. -/
def IsComposite : LedgerError → Prop
  | .rollbackAfterFailure _ _ => True
  | _ => False

/-- Every error is built from failures that are not composite. -/
theorem tree_induction {motive : LedgerError → Prop}
    (simple : ∀ e : LedgerError, ¬ e.IsComposite → motive e)
    (composite : ∀ e r : LedgerError, motive e → motive r → motive (e.withRollbackFailure r))
    (e : LedgerError) : motive e := by
  induction e with
  | rollbackAfterFailure e r ihe ihr => exact composite e r ihe ihr
  | _ => exact simple _ id

/-- The sides of a composite error: what caused the rollback, and how the rollback failed. -/
inductive Side where
  | error
  | rollback
  deriving DecidableEq, Repr

/-- What stands on a side of an error. -/
def side? : LedgerError → Side → Option LedgerError
  | .rollbackAfterFailure e _, .error => some e
  | .rollbackAfterFailure _ r, .rollback => some r
  | _, _ => none

/-- The part of an error at the end of a path. -/
def part? : List Side → LedgerError → Option LedgerError
  | [], e => some e
  | s :: path, e => (e.side? s).bind (part? path)

/-- The error with one side of it changed. -/
def onSide : LedgerError → Side → (LedgerError → LedgerError) → LedgerError
  | .rollbackAfterFailure e r, .error, change => .rollbackAfterFailure (change e) r
  | .rollbackAfterFailure e r, .rollback, change => .rollbackAfterFailure e (change r)
  | e, _, _ => e

/-- The error with another part at the end of a path, if there is one. -/
def replaceAt : List Side → LedgerError → LedgerError → LedgerError
  | [], x, _ => x
  | s :: path, x, e => e.onSide s (replaceAt path x)

/-- The failure that everything began with. -/
def origin : LedgerError → LedgerError
  | .rollbackAfterFailure e _ => e.origin
  | e => e

/-- The failures in an error that are not composite, from left to right. -/
def leaves : LedgerError → List LedgerError
  | .rollbackAfterFailure e r => e.leaves ++ r.leaves
  | e => [e]

section Simple

variable {e : LedgerError} (he : ¬ e.IsComposite)
include he

theorem side?_of_simple (s : Side) : e.side? s = none := by
  cases e with
  | rollbackAfterFailure => exact absurd trivial he
  | _ => rfl

theorem onSide_of_simple (s : Side) (change : LedgerError → LedgerError) :
    e.onSide s change = e := by
  cases e with
  | rollbackAfterFailure => exact absurd trivial he
  | _ => rfl

theorem origin_of_simple : e.origin = e := by
  cases e with
  | rollbackAfterFailure => exact absurd trivial he
  | _ => rfl

theorem leaves_of_simple : e.leaves = [e] := by
  cases e with
  | rollbackAfterFailure => exact absurd trivial he
  | _ => rfl

theorem source?_of_simple : e.source? = none := by
  cases e with
  | rollbackAfterFailure => exact absurd trivial he
  | _ => rfl

theorem sources_of_simple : e.sources = [] := by
  cases e with
  | rollbackAfterFailure => exact absurd trivial he
  | _ => rfl

end Simple

/-- The leaves are the parts that are not composite. -/
theorem mem_leaves_iff {e x : LedgerError} :
    x ∈ e.leaves ↔ (∃ path, part? path e = some x) ∧ ¬ x.IsComposite := by
  induction e using tree_induction with
  | simple e he =>
      rw [leaves_of_simple he, List.mem_singleton]
      constructor
      · rintro rfl
        exact ⟨⟨[], rfl⟩, he⟩
      · rintro ⟨⟨path, h⟩, -⟩
        cases path with
        | nil => exact (Option.some.inj h).symm
        | cons s path => rw [part?, side?_of_simple he] at h; cases h
  | composite e r ihe ihr =>
      rw [withRollbackFailure, leaves, List.mem_append, ihe, ihr]
      constructor
      · rintro (⟨⟨path, h⟩, hx⟩ | ⟨⟨path, h⟩, hx⟩)
        · exact ⟨⟨.error :: path, h⟩, hx⟩
        · exact ⟨⟨.rollback :: path, h⟩, hx⟩
      · rintro ⟨⟨path, h⟩, hx⟩
        cases path with
        | nil => exact absurd (Option.some.inj h ▸ trivial) hx
        | cons s path =>
            cases s with
            | error => exact .inl ⟨⟨path, h⟩, hx⟩
            | rollback => exact .inr ⟨⟨path, h⟩, hx⟩

/-! ## The chain of sources -/

/-- The error that is reached by asking for the source a number of times. -/
def sourceAfter? : Nat → LedgerError → Option LedgerError
  | 0, e => some e
  | n + 1, e => e.source?.bind (sourceAfter? n)

/-- Asking for the source again and again goes through the chain, and then finds nothing. -/
theorem sources_getElem? (e : LedgerError) (n : Nat) : e.sources[n]? = sourceAfter? (n + 1) e := by
  induction e using tree_induction generalizing n with
  | simple e he => rw [sources_of_simple he, sourceAfter?, source?_of_simple he]; rfl
  | composite e r ih _ =>
      cases n with
      | zero => rfl
      | succ n => exact ih n

/-- The chain is found on the side of the causes. -/
theorem sources_getElem?_eq_part? (e : LedgerError) (n : Nat) :
    e.sources[n]? = part? (List.replicate (n + 1) .error) e := by
  induction e using tree_induction generalizing n with
  | simple e he => rw [sources_of_simple he, List.replicate_succ, part?, side?_of_simple he]; rfl
  | composite e r ih _ =>
      cases n with
      | zero => rfl
      | succ n => exact ih n

theorem getLast_sources (e : LedgerError) :
    (e :: e.sources).getLast (List.cons_ne_nil _ _) = e.origin := by
  induction e using tree_induction with
  | simple e he => simp only [sources_of_simple he, origin_of_simple he, List.getLast_singleton]
  | composite e r ih _ => exact (List.getLast_cons_cons ..).trans ih

theorem not_isComposite_origin (e : LedgerError) : ¬ e.origin.IsComposite := by
  induction e using tree_induction with
  | simple e he => rwa [origin_of_simple he]
  | composite e r ih _ => exact ih

theorem isTransient_origin (e : LedgerError) : e.origin.isTransient = e.isTransient := by
  induction e using tree_induction with
  | simple e he => rw [origin_of_simple he]
  | composite e r ih _ => exact ih

/-! ## Something else in a rollback -/

/-- The path to the rollback side of the composite that is reached by following the causes `n`
times, and on into what stands there. -/
def rollbackPath (n : Nat) (path : List Side) : List Side :=
  List.replicate n .error ++ .rollback :: path

/-- Every path into some rollback leads to it along the causes first. -/
theorem rollback_mem_iff {path : List Side} :
    .rollback ∈ path ↔ ∃ n rest, path = rollbackPath n rest := by
  constructor
  · intro h
    induction path with
    | nil => cases h
    | cons s path ih =>
        cases s with
        | rollback => exact ⟨0, path, rfl⟩
        | error =>
            obtain ⟨n, rest, rfl⟩ := ih ((List.mem_cons.1 h).resolve_left nofun)
            exact ⟨n + 1, rest, rfl⟩
  · rintro ⟨n, rest, rfl⟩
    exact List.mem_append_right _ List.mem_cons_self

theorem replaceAt_rollbackPath_of_simple {e : LedgerError} (he : ¬ e.IsComposite) (n : Nat)
    (path : List Side) (x : LedgerError) : replaceAt (rollbackPath n path) x e = e := by
  cases n with
  | zero => exact onSide_of_simple he _ _
  | succ n => exact onSide_of_simple he _ _

theorem label_replaceAt_rollbackPath (e : LedgerError) (n : Nat) (path : List Side)
    (x : LedgerError) : (replaceAt (rollbackPath n path) x e).label = e.label := by
  cases e with
  | rollbackAfterFailure e r => cases n <;> rfl
  | _ => rw [replaceAt_rollbackPath_of_simple id]

theorem origin_replaceAt_rollbackPath (e : LedgerError) (n : Nat) (path : List Side)
    (x : LedgerError) : (replaceAt (rollbackPath n path) x e).origin = e.origin := by
  induction e using tree_induction generalizing n with
  | simple e he => rw [replaceAt_rollbackPath_of_simple he]
  | composite e r ih _ =>
      cases n with
      | zero => rfl
      | succ n => exact ih n

/-- The members of the chain that contain what was replaced are the old ones with the same replaced;
the others are the old ones. -/
theorem sources_replaceAt_rollbackPath (e : LedgerError) (n : Nat) (path : List Side)
    (x : LedgerError) :
    (replaceAt (rollbackPath n path) x e).sources = e.sources.mapIdx fun k s =>
      if k < n then replaceAt (rollbackPath (n - (k + 1)) path) x s else s := by
  induction e using tree_induction generalizing n with
  | simple e he => rw [replaceAt_rollbackPath_of_simple he, sources_of_simple he, List.mapIdx_nil]
  | composite e r ih _ =>
      cases n with
      | zero =>
          refine List.ext_getElem? fun k => ?_
          simp only [List.getElem?_mapIdx, Nat.not_lt_zero, if_false, Option.map_id']
          rfl
      | succ n =>
          refine (congrArg (_ :: ·) (ih n)).trans ?_
          simp only [withRollbackFailure, sources, List.mapIdx_cons, Nat.add_lt_add_iff_right,
            Nat.add_sub_add_right, Nat.succ_pos, if_true]
          rfl

/-- What stands on the rollback side of the error itself is not in the chain. -/
theorem sources_replaceAt_rollback (e : LedgerError) (path : List Side) (x : LedgerError) :
    (replaceAt (.rollback :: path) x e).sources = e.sources := by
  induction e using tree_induction with
  | simple e he => exact congrArg sources (replaceAt_rollbackPath_of_simple he 0 path x)
  | composite e r => rfl

theorem isTransient_replaceAt_rollbackPath (e : LedgerError) (n : Nat) (path : List Side)
    (x : LedgerError) : (replaceAt (rollbackPath n path) x e).isTransient = e.isTransient := by
  rw [← isTransient_origin, origin_replaceAt_rollbackPath, isTransient_origin]

theorem map_label_replaceAt_rollbackPath (e : LedgerError) (n : Nat) (path : List Side)
    (x : LedgerError) :
    (replaceAt (rollbackPath n path) x e).sources.map label = e.sources.map label := by
  rw [sources_replaceAt_rollbackPath]
  refine List.ext_getElem? fun k => ?_
  simp only [List.getElem?_map, List.getElem?_mapIdx, Option.map_map]
  congr 1
  funext s
  simp only [Function.comp]
  split
  · exact label_replaceAt_rollbackPath s _ path x
  · rfl

/-! ## The text -/

/-- The parts stand in the text one behind the other. -/
def ShowsInOrder : List String → String → Prop
  | [], _ => True
  | part :: parts, text => ∃ before behind, text = before ++ part ++ behind ∧
      ShowsInOrder parts behind

theorem ShowsInOrder.prepend {parts : List String} {text : String} (h : ShowsInOrder parts text)
    (before : String) : ShowsInOrder parts (before ++ text) := by
  cases parts with
  | nil => trivial
  | cons part parts =>
      obtain ⟨before', behind, rfl, hrest⟩ := h
      exact ⟨before ++ before', behind, by simp only [String.append_assoc], hrest⟩

theorem ShowsInOrder.append {parts parts' : List String} {text text' : String}
    (h : ShowsInOrder parts text) (h' : ShowsInOrder parts' text') :
    ShowsInOrder (parts ++ parts') (text ++ text') := by
  induction parts generalizing text with
  | nil => exact h'.prepend text
  | cons part parts ih =>
      obtain ⟨before, behind, rfl, hrest⟩ := h
      exact ⟨before, behind ++ text', by simp only [String.append_assoc], ih hrest⟩

theorem showsInOrder_singleton (text : String) : ShowsInOrder [text] text :=
  ⟨"", "", by rw [String.append_empty, String.empty_append], trivial⟩

theorem message_withRollbackFailure (e r : LedgerError) :
    (e.withRollbackFailure r).message =
      "tx error: " ++ e.message ++ ", rollback error: " ++ r.message := rfl

/-- No failure is swallowed: the text shows the texts of all leaves. -/
theorem showsInOrder_message (e : LedgerError) :
    ShowsInOrder (e.leaves.map message) e.message := by
  induction e using tree_induction with
  | simple e he =>
      rw [leaves_of_simple he]
      exact showsInOrder_singleton e.message
  | composite e r ihe ihr =>
      have h := (ihe.prepend "tx error: ").append (ihr.prepend ", rollback error: ")
      rw [message_withRollbackFailure, withRollbackFailure, leaves, List.map_append,
        String.append_assoc]
      exact h

/-! ## The whole -/

/-- What holds of the chain of sources of an error, of its transience and of its text. -/
structure Judged (e : LedgerError) : Prop where
  /-- The chain is what asking for the source again and again goes through. -/
  chain (n : Nat) : e.sources[n]? = sourceAfter? (n + 1) e
  /-- It is the spine of the tree: what is found by following the causes. -/
  spine (n : Nat) : e.sources[n]? = part? (List.replicate (n + 1) .error) e
  /-- It ends with a failure that is not composite and has no source. -/
  ends : (e :: e.sources).getLast (List.cons_ne_nil _ _) = e.origin ∧ ¬ e.origin.IsComposite ∧
    e.origin.source? = none
  /-- That failure decides whether the whole is transient. -/
  transient : e.isTransient = e.origin.isTransient
  /-- Something else in a rollback changes neither the transience nor the end of the chain, nor how
  many members of which kinds the chain has. -/
  replaced {path : List Side} (h : .rollback ∈ path) (x : LedgerError) :
    (replaceAt path x e).isTransient = e.isTransient ∧ (replaceAt path x e).origin = e.origin ∧
      (replaceAt path x e).sources.map label = e.sources.map label
  /-- The members of the chain that contain what was replaced are the old ones with the same
  replaced; the others are the old ones. -/
  members (n : Nat) (path : List Side) (x : LedgerError) :
    (replaceAt (rollbackPath n path) x e).sources = e.sources.mapIdx fun k s =>
      if k < n then replaceAt (rollbackPath (n - (k + 1)) path) x s else s
  /-- The chain does not depend on the rollback side of the error itself. -/
  own_rollback (path : List Side) (x : LedgerError) :
    (replaceAt (.rollback :: path) x e).sources = e.sources
  /-- The leaves are all the failures in the error that are not composite. -/
  leaves (x : LedgerError) :
    x ∈ e.leaves ↔ (∃ path, part? path e = some x) ∧ ¬ x.IsComposite
  /-- The text shows their texts, from left to right. -/
  text : ShowsInOrder (e.leaves.map message) e.message

/-- **A composite error is judged by the failure that everything began with.** -/
theorem judged_by_origin (e : LedgerError) : e.Judged where
  chain := sources_getElem? e
  spine := sources_getElem?_eq_part? e
  ends := ⟨getLast_sources e, not_isComposite_origin e,
    source?_of_simple (not_isComposite_origin e)⟩
  transient := (isTransient_origin e).symm
  replaced h x := by
    obtain ⟨n, rest, rfl⟩ := rollback_mem_iff.1 h
    exact ⟨isTransient_replaceAt_rollbackPath e n rest x, origin_replaceAt_rollbackPath e n rest x,
      map_label_replaceAt_rollbackPath e n rest x⟩
  members := sources_replaceAt_rollbackPath e
  own_rollback := sources_replaceAt_rollback e
  leaves _ := mem_leaves_iff
  text := showsInOrder_message e

/-- A lost connection, whose rollback failed as given, and then the rollback around it. -/
def lostTwice (rollback : LedgerError) : LedgerError :=
  ((connectionLost "socket closed").withRollbackFailure rollback).withRollbackFailure
    (rollbackFailure "timed out")

/-- The chain does show what failed in a rollback further inside. -/
theorem sources_show_inner_rollback :
    part? [.error, .rollback] (lostTwice (rollbackFailure "broken pipe")) =
        some (rollbackFailure "broken pipe") ∧
      replaceAt [.error, .rollback] (rollbackFailure "no answer")
          (lostTwice (rollbackFailure "broken pipe")) = lostTwice (rollbackFailure "no answer") ∧
      (lostTwice (rollbackFailure "no answer")).sources.map message ≠
        (lostTwice (rollbackFailure "broken pipe")).sources.map message := by
  decide

end DoubleEntry.LedgerError
