import DoubleEntry.Proofs.AppendOnly
import DoubleEntry.Proofs.Erasure
set_option autoImplicit false

/-! # Listings, page by page

A query for a listing selects some of the rows that there are to see, and a page is a segment of
them in the order of their numbers (`Listing`). The order does not depend on the one in which the
rows are found, so that the pages that follow each other at the distance of their size
(`Page.following`) tile the listing: each row stands on one of them, and behind the last row they
are empty.
-/

namespace DoubleEntry

namespace Page

variable {α : Type}

/-- How many rows a page has room for when so many were asked for. -/
def room (limit : Int) : Nat := (max 1 (min limit 100)).toNat

/-- The page that `k` others of the same size come before. -/
def following (limit : Int) (k : Nat) : Page where
  limit
  offset := k * max 1 (min limit 100)

theorem slice_eq (p : Page) (rows : List α) :
    p.slice rows = (rows.drop (max p.offset 0).toNat).take (room p.limit) := by
  rw [Int.max_comm]
  rfl

theorem slice_following (limit : Int) (k : Nat) (rows : List α) :
    (following limit k).slice rows = (rows.drop (k * room limit)).take (room limit) := by
  have hroom : (room limit : Int) = max 1 (min limit 100) := Int.toNat_of_nonneg (by omega)
  have hoffset : (max (following limit k).offset 0).toNat = k * room limit := by
    have hcast : (following limit k).offset = ((k * room limit : Nat) : Int) := by
      rw [Nat.cast_mul, hroom]
      rfl
    omega
  rw [slice_eq, hoffset]
  rfl

/-- Pages that follow each other are the beginning of the listing. -/
theorem flatMap_following (limit : Int) (k : Nat) (rows : List α) :
    (List.range k).flatMap (fun i => (following limit i).slice rows) =
      rows.take (k * room limit) := by
  induction k with
  | zero => simp
  | succ k ih =>
      rw [List.range_succ, List.flatMap_append, ih, List.flatMap_singleton, slice_following,
        Nat.succ_mul, List.take_add]

/-- Behind the last row there are only empty pages. -/
theorem slice_following_eq_nil {limit : Int} {k : Nat} {rows : List α}
    (h : rows.length ≤ k * room limit) : (following limit k).slice rows = [] := by
  rw [slice_following, List.drop_eq_nil_of_le h, List.take_nil]

end Page

/-- **Pages of a listing.** A row is looked up by its number with `get?`, the rows that are listed
are `rows`, and `page` gives the part of them that is asked for. -/
structure Listing {α : Type} (id : α → Int) (get? : Int → Option α) (selects : α → Prop)
    (rows : List α) (page : Page → List α) : Prop where
  /-- A row that is found under a number has that number. -/
  numbered : ∀ {k x}, get? k = some x → id x = k
  /-- What is listed is what can be looked up, as far as it is selected. -/
  mem_iff : ∀ x, x ∈ rows ↔ get? (id x) = some x ∧ selects x
  ordered : rows.Pairwise fun x y => id x < id y
  once : rows.Nodup
  /-- A page begins at its offset, from there it goes on without a gap, and it is filled as far as
  there are rows. -/
  segment : ∀ p : Page,
    page p = (rows.drop (max p.offset 0).toNat).take (max 1 (min p.limit 100)).toNat
  length : ∀ p : Page, (page p).length =
    min (max 1 (min p.limit 100)).toNat (rows.length - (max p.offset 0).toNat)
  /-- In whatever order the rows are found, sorting them by their numbers gives the page. -/
  sorted : ∀ found : List α, found.Perm rows →
    ∀ p : Page, page p = p.slice (found.mergeSort fun x y => id x ≤ id y)
  /-- The first pages together are the first rows. -/
  tiles : ∀ (limit : Int) (k : Nat),
    (List.range k).flatMap (fun i => page (.following limit i)) = rows.take (k * Page.room limit)
  /-- Enough pages are the whole listing, and what follows them is empty. -/
  whole : ∀ (limit : Int) (k : Nat), rows.length ≤ k * Page.room limit →
    (List.range k).flatMap (fun i => page (.following limit i)) = rows ∧
      ∀ j, k ≤ j → page (.following limit j) = []

/-- Rows that are sorted by their numbers are in the only such order. -/
theorem Listing.mergeSort_eq_of_perm {α : Type} {id : α → Int} {found rows : List α}
    (hperm : found.Perm rows) (h : rows.Pairwise fun x y => id x < id y) :
    found.mergeSort (fun x y => id x ≤ id y) = rows := by
  have htrans : ∀ x y z, decide (id x ≤ id y) = true → decide (id y ≤ id z) = true →
      decide (id x ≤ id z) = true := by
    intro x y z
    simpa using Int.le_trans
  have htotal : ∀ x y, (decide (id x ≤ id y) || decide (id y ≤ id x)) = true := by
    intro x y
    simpa using Int.le_total (id x) (id y)
  have hsorted : (found.mergeSort fun x y => id x ≤ id y).Pairwise fun x y => id x ≤ id y := by
    simpa using List.pairwise_mergeSort htrans htotal found
  have hsame : (found.mergeSort fun x y => id x ≤ id y).Perm rows :=
    (List.mergeSort_perm _ _).trans hperm
  have hnodup : (rows.map id).Nodup := List.pairwise_map.2 (h.imp ne_of_lt)
  -- Rows with the same number are the same row, so that the order is antisymmetric on them.
  refine hsame.eq_of_pairwise (fun x y hx hy hxy hyx => ?_) hsorted (h.imp le_of_lt)
  exact List.inj_on_of_nodup_map hnodup (hsame.mem_iff.1 hx) hy (Int.le_antisymm hxy hyx)

namespace Table

variable {α : Type} {t : Table α} {id : α → Int}

/-- Rows that are numbered by their keys stand in the order of their numbers. -/
theorem ordered_toList (h : ∀ {k x}, t.get? k = some x → id x = k) :
    t.toList.Pairwise fun x y => id x < id y := by
  unfold toList
  rw [List.pairwise_map]
  refine t.ordered.imp_of_mem fun {x y} hx hy hlt => ?_
  rw [h (mem_rows_iff.1 hx), h (mem_rows_iff.1 hy)]
  exact hlt

/-- **The pages of the rows of a table** that a query selects. -/
theorem listing (h : ∀ {k x}, t.get? k = some x → id x = k) (selects : α → Bool) :
    Listing id t.get? (fun x => selects x = true) (t.toList.filter selects)
      fun p => p.slice (t.toList.filter selects) := by
  have hordered : (t.toList.filter selects).Pairwise fun x y => id x < id y :=
    (ordered_toList h).filter _
  exact
    { numbered := h
      mem_iff := by
        intro x
        rw [List.mem_filter, mem_toList_iff]
        constructor
        · rintro ⟨⟨k, hk⟩, hx⟩
          exact ⟨by rwa [h hk], hx⟩
        · rintro ⟨hk, hx⟩
          exact ⟨⟨_, hk⟩, hx⟩
      ordered := hordered
      once := hordered.imp fun hlt heq => absurd hlt (by rw [heq]; exact Int.lt_irrefl _)
      segment := fun p => p.slice_eq _
      length := fun p => by rw [p.slice_eq, List.length_take, List.length_drop]; rfl
      sorted := fun found hfound p => by rw [Listing.mergeSort_eq_of_perm hfound hordered]
      tiles := fun limit k => Page.flatMap_following limit k _
      whole := by
        intro limit k hk
        refine ⟨?_, fun j hj => Page.slice_following_eq_nil (hk.trans ?_)⟩
        · rw [Page.flatMap_following, List.take_of_length_le hk]
        · exact Nat.mul_le_mul_right _ hj }

end Table

namespace Bank

/-- **The listings of a bank can be turned over page by page.** -/
structure Paged (b : Bank) : Prop where
  accounts : Listing Account.id b.getAccount (fun _ => True) b.allAccounts b.listAccounts
  entries : ∀ account, Listing Entry.id b.getEntry (fun e => e.account = account)
    (b.entriesOf account) (b.listEntries account)
  transfers : ∀ source target, Listing Transfer.id b.getTransfer
    (fun t => t.source = source ∨ t.target = target) (b.transfersOf source target)
    (b.listTransfers source target)

variable {b : Bank} {awaits : Owner → Option Int} {spent : Spent}

theorem Sound.paged (h : b.Sound awaits) (hf : b.Fresh spent) : b.Paged where
  accounts := by
    have hids : ∀ {k x}, b.ledger.accounts.get? k = some x → x.id = k := by
      intro k x hx
      rw [get?_ledger, Option.map_eq_some_iff] at hx
      obtain ⟨r, hr, rfl⟩ := hx
      exact (h.settled.stamped hr).1
    have hlisting := Table.listing hids fun _ => true
    have hget : b.getAccount = b.ledger.accounts.get? := funext b.getAccount_eq
    have hlist : b.listAccounts = fun p => p.slice b.ledger.accounts.toList := by
      unfold listAccounts
      rw [allAccounts_eq]
    rw [hget, hlist, allAccounts_eq]
    simpa using hlisting
  entries account := by
    have hlisting := Table.listing (fun hx => (hf.entries.row hx).1) fun e => e.account = account
    simp only [decide_eq_true_eq] at hlisting
    exact hlisting
  transfers source target := by
    have hlisting := Table.listing (fun hx => (hf.transfers.row hx).1)
      fun t => t.source = source || t.target = target
    simp only [Bool.or_eq_true, decide_eq_true_eq] at hlisting
    exact hlisting

end Bank

/-- **Pages tile the listings,** whatever calls, account statements, cancellations, rollbacks and
drops have come before, and whatever waits. At a desk a page is answered at once. -/
theorem Hall.paged_run (nonNegative : Bool) :
    (∀ ms, ((opening nonNegative).afterAll ms).bank.Paged) ∧
    ∀ es, ((Desk.opening nonNegative).afterAll es).bank.Paged ∧
      ∀ q, ((Desk.opening nonNegative).afterAll es).submit (.query q) =
        (.reply (.done (((Desk.opening nonNegative).afterAll es).bank.answer q)),
          ((Desk.opening nonNegative).afterAll es).count) := by
  constructor
  · intro ms
    have h := sound_run nonNegative ms
    exact h.bank.paged h.fresh
  · intro es
    have hopening : Desk.Reachable nonNegative (.opening nonNegative) := .opening
    have h := (hopening.afterAll es).sound
    exact ⟨h.bank.paged h.fresh, fun q => rfl⟩

/-- The last page of five rows, two at a time. -/
example : (Page.following 2 2).slice [10, 20, 30, 40, 50] = [50] := by decide

end DoubleEntry
