set_option autoImplicit false

/-! # Tables of rows in the order of their keys

A `Table α` holds at most one row of type `α` for each integer key, in increasing order of the
keys. The order is part of the type, so a table is determined by its look-ups (`Table.ext`): two
histories that leave the same rows behind leave the same table.
-/

namespace DoubleEntry

/-- A finite table of rows, kept in strictly increasing order of the keys. -/
structure Table (α : Type) where
  rows : List (Int × α)
  ordered : rows.Pairwise (fun x y => x.1 < y.1)

namespace Table

variable {α : Type}

/-- The table without rows. -/
def empty : Table α := ⟨[], .nil⟩

instance : Inhabited (Table α) := ⟨empty⟩

instance : EmptyCollection (Table α) := ⟨empty⟩

instance [DecidableEq α] : DecidableEq (Table α) := fun s t =>
  decidable_of_iff (s.rows = t.rows) ⟨fun h => by cases s; cases t; cases h; rfl, fun h => h ▸ rfl⟩

instance [Repr α] : Repr (Table α) := ⟨fun t n => reprPrec t.rows n⟩

/-! ## Rows as a list -/

/-- The row with key `k` in a list of keyed rows. -/
def lookup (k : Int) : List (Int × α) → Option α
  | [] => none
  | (j, a) :: rest => if j = k then some a else lookup k rest

/-- Puts a row into an ordered list of rows, in place of the row with the same key if there is
one. -/
def insertRow (k : Int) (a : α) : List (Int × α) → List (Int × α)
  | [] => [(k, a)]
  | (j, b) :: rest =>
      if k < j then (k, a) :: (j, b) :: rest
      else if k = j then (k, a) :: rest
      else (j, b) :: insertRow k a rest

theorem mem_insertRow {k : Int} {a : α} {x : Int × α} {l : List (Int × α)}
    (h : x ∈ insertRow k a l) : x = (k, a) ∨ x ∈ l := by
  induction l with
  | nil => simpa [insertRow] using h
  | cons y rest ih =>
      obtain ⟨j, b⟩ := y
      simp only [insertRow] at h
      split at h
      · simpa using h
      · split at h
        · rcases List.mem_cons.1 h with h | h
          · exact .inl h
          · exact .inr (List.mem_cons_of_mem _ h)
        · rcases List.mem_cons.1 h with h | h
          · exact .inr (h ▸ List.mem_cons_self)
          · exact (ih h).imp_right (List.mem_cons_of_mem _)

theorem ordered_insertRow (k : Int) (a : α) {l : List (Int × α)}
    (h : l.Pairwise (fun x y => x.1 < y.1)) :
    (insertRow k a l).Pairwise (fun x y => x.1 < y.1) := by
  induction l with
  | nil => simp [insertRow]
  | cons y rest ih =>
      obtain ⟨j, b⟩ := y
      obtain ⟨hj, hrest⟩ := List.pairwise_cons.1 h
      simp only [insertRow]
      split
      · rename_i hlt
        refine List.pairwise_cons.2 ⟨fun z hz => ?_, h⟩
        rcases List.mem_cons.1 hz with rfl | hz
        · exact hlt
        · exact Int.lt_trans hlt (hj z hz)
      · split
        · rename_i heq
          subst heq
          exact List.pairwise_cons.2 ⟨hj, hrest⟩
        · refine List.pairwise_cons.2 ⟨fun z hz => ?_, ih hrest⟩
          rcases mem_insertRow hz with rfl | hz
          · show j < k
            omega
          · exact hj z hz

/-! ## Operations -/

/-- The row with key `k`, if the table has one. -/
def get? (t : Table α) (k : Int) : Option α := lookup k t.rows

/-- Whether the table has a row with key `k`. -/
def contains (t : Table α) (k : Int) : Bool := (t.get? k).isSome

/-- Puts a row under key `k`, in place of the one that was there. -/
def insert (t : Table α) (k : Int) (a : α) : Table α :=
  ⟨insertRow k a t.rows, ordered_insertRow k a t.ordered⟩

/-- Removes the row with key `k`. -/
def erase (t : Table α) (k : Int) : Table α :=
  ⟨t.rows.filter (fun x => x.1 ≠ k), t.ordered.filter _⟩

/-- Changes the row with key `k`, if there is one. -/
def modify (t : Table α) (k : Int) (f : α → α) : Table α :=
  match t.get? k with
  | some a => t.insert k (f a)
  | none => t

/-- The rows in increasing order of their keys. -/
def toList (t : Table α) : List α := t.rows.map Prod.snd

/-- The number of rows. -/
def size (t : Table α) : Nat := t.rows.length

/-! ## Look-ups after each operation -/

theorem lookup_insertRow (k i : Int) (a : α) {l : List (Int × α)}
    (h : l.Pairwise (fun x y => x.1 < y.1)) :
    lookup i (insertRow k a l) = if i = k then some a else lookup i l := by
  induction l with
  | nil => simp [insertRow, lookup, eq_comm]
  | cons y rest ih =>
      obtain ⟨j, b⟩ := y
      have ih := ih (List.pairwise_cons.1 h).2
      simp only [insertRow]
      split
      · simp [lookup, eq_comm]
      · split
        · rename_i heq
          subst heq
          by_cases hi : i = k
          · simp [lookup, hi]
          · simp [lookup, hi, Ne.symm hi]
        · by_cases hi : j = i
          · subst hi
            have : ¬ j = k := by omega
            simp [lookup, this]
          · simp [lookup, hi, ih]

theorem lookup_filter_ne (k i : Int) (l : List (Int × α)) :
    lookup i (l.filter (fun x => x.1 ≠ k)) = if i = k then none else lookup i l := by
  induction l with
  | nil => simp [lookup]
  | cons y rest ih =>
      obtain ⟨j, b⟩ := y
      by_cases hj : j = k
      · subst hj
        by_cases hi : i = j
        · simp [hi] at ih ⊢
          exact ih
        · simp [lookup, hi, Ne.symm hi] at ih ⊢
          exact ih
      · by_cases hi : j = i
        · subst hi
          simp [lookup, hj]
        · simp [lookup, hj, hi] at ih ⊢
          exact ih

@[simp] theorem get?_empty (k : Int) : (empty : Table α).get? k = none := rfl

@[simp, grind =] theorem get?_insert (t : Table α) (k i : Int) (a : α) :
    (t.insert k a).get? i = if i = k then some a else t.get? i :=
  lookup_insertRow k i a t.ordered

@[simp, grind =] theorem get?_erase (t : Table α) (k i : Int) :
    (t.erase k).get? i = if i = k then none else t.get? i :=
  lookup_filter_ne k i t.rows

theorem get?_modify (t : Table α) (k i : Int) (f : α → α) :
    (t.modify k f).get? i = if i = k then (t.get? i).map f else t.get? i := by
  unfold modify
  split <;> rename_i h
  · by_cases hi : i = k
    · subst hi; simp [h]
    · simp [hi]
  · by_cases hi : i = k
    · subst hi; simp [h]
    · simp [hi]

/-! ## A table is its look-ups -/

theorem lookup_eq_none {k : Int} {l : List (Int × α)} (h : ∀ x ∈ l, k < x.1) :
    lookup k l = none := by
  induction l with
  | nil => rfl
  | cons y rest ih =>
      have hy : k < y.1 := h y List.mem_cons_self
      have : ¬ y.1 = k := by omega
      simp [lookup, this, ih fun x hx => h x (List.mem_cons_of_mem _ hx)]

theorem rows_eq_of_lookup {l m : List (Int × α)}
    (hl : l.Pairwise (fun x y => x.1 < y.1)) (hm : m.Pairwise (fun x y => x.1 < y.1))
    (h : ∀ k, lookup k l = lookup k m) : l = m := by
  induction l generalizing m with
  | nil =>
      cases m with
      | nil => rfl
      | cons y _ => have := h y.1; simp [lookup] at this
  | cons x l ih =>
      obtain ⟨hx, hl'⟩ := List.pairwise_cons.1 hl
      cases m with
      | nil => have := h x.1; simp [lookup] at this
      | cons y m =>
          obtain ⟨hy, hm'⟩ := List.pairwise_cons.1 hm
          have hkey : x.1 = y.1 := by
            rcases Int.lt_trichotomy x.1 y.1 with hlt | heq | hgt
            · have hnone : lookup x.1 (y :: m) = none := lookup_eq_none fun z hz => by
                rcases List.mem_cons.1 hz with rfl | hz
                · exact hlt
                · exact Int.lt_trans hlt (hy z hz)
              have := h x.1
              rw [hnone] at this
              simp [lookup] at this
            · exact heq
            · have hnone : lookup y.1 (x :: l) = none := lookup_eq_none fun z hz => by
                rcases List.mem_cons.1 hz with rfl | hz
                · exact hgt
                · exact Int.lt_trans hgt (hx z hz)
              have := h y.1
              rw [hnone] at this
              simp [lookup] at this
          have hxy : x = y := by
            have := h x.1
            simp only [lookup, hkey, if_true, Option.some.injEq] at this
            exact Prod.ext hkey this
          subst hxy
          congr 1
          refine ih hl' hm' fun k => ?_
          by_cases hk : x.1 = k
          · subst hk
            rw [lookup_eq_none hx, lookup_eq_none hy]
          · have := h k
            simpa [lookup, hk] using this

/-- **A table is determined by its look-ups.** -/
theorem ext {s t : Table α} (h : ∀ k, s.get? k = t.get? k) : s = t := by
  have := rows_eq_of_lookup s.ordered t.ordered h
  cases s; cases t; cases this; rfl

/-- A row that is put in the place of the same row. -/
theorem insert_eq_self {t : Table α} {k : Int} {a : α} (h : t.get? k = some a) :
    t.insert k a = t := by
  apply ext
  intro i
  rw [get?_insert]
  by_cases hi : i = k
  · rw [if_pos hi, hi, h]
  · rw [if_neg hi]

/-- A row that is put in the place of one that was put there before. -/
theorem insert_insert (t : Table α) (k : Int) (a b : α) :
    (t.insert k a).insert k b = t.insert k b := by
  apply ext
  intro i
  rw [get?_insert, get?_insert, get?_insert]
  by_cases hi : i = k
  · rw [if_pos hi, if_pos hi]
  · rw [if_neg hi, if_neg hi, if_neg hi]

/-! ## The rows of a table are what its look-ups find -/

theorem mem_rows_iff {t : Table α} {k : Int} {a : α} : (k, a) ∈ t.rows ↔ t.get? k = some a := by
  obtain ⟨l, hl⟩ := t
  show (k, a) ∈ l ↔ lookup k l = some a
  induction l with
  | nil => simp [lookup]
  | cons y rest ih =>
      obtain ⟨j, b⟩ := y
      have hj : ∀ x ∈ rest, j < x.1 := (List.pairwise_cons.1 hl).1
      have ih := ih (List.pairwise_cons.1 hl).2
      by_cases hk : j = k
      · subst hk
        have hnot : (j, a) ∉ rest := fun hmem => Int.lt_irrefl j (hj (j, a) hmem)
        simp [lookup, hnot, eq_comm]
      · simp [lookup, hk, Ne.symm hk, ih]

theorem mem_toList_iff {t : Table α} {a : α} : a ∈ t.toList ↔ ∃ k, t.get? k = some a := by
  simp only [toList, List.mem_map]
  constructor
  · rintro ⟨⟨k, b⟩, hmem, rfl⟩
    exact ⟨k, mem_rows_iff.1 hmem⟩
  · rintro ⟨k, hk⟩
    exact ⟨(k, a), mem_rows_iff.2 hk, rfl⟩

theorem contains_iff {t : Table α} {k : Int} : t.contains k = true ↔ ∃ a, t.get? k = some a :=
  Option.isSome_iff_exists

theorem contains_eq_false_iff {t : Table α} {k : Int} : t.contains k = false ↔ t.get? k = none := by
  simp [contains]

theorem contains_eq_of_map {β γ : Type} {t : Table α} {s : Table β} {f : α → γ} {g : β → γ}
    {k : Int} (h : (t.get? k).map f = (s.get? k).map g) : t.contains k = s.contains k := by
  unfold contains
  rw [← Option.isSome_map (f := f), h, Option.isSome_map]

@[simp] theorem contains_insert (t : Table α) (k i : Int) (a : α) :
    (t.insert k a).contains i = (decide (i = k) || t.contains i) := by
  by_cases h : i = k <;> simp [contains, h]

@[simp] theorem contains_modify (t : Table α) (k i : Int) (f : α → α) :
    (t.modify k f).contains i = t.contains i := by
  by_cases h : i = k <;> simp [contains, get?_modify, h]

theorem get?_insert_eq_some {t : Table α} {k i : Int} {a b : α} :
    (t.insert k a).get? i = some b ↔ i = k ∧ a = b ∨ i ≠ k ∧ t.get? i = some b := by
  by_cases h : i = k <;> simp [h]

theorem get?_erase_eq_some {t : Table α} {k i : Int} {b : α} :
    (t.erase k).get? i = some b ↔ i ≠ k ∧ t.get? i = some b := by
  by_cases h : i = k <;> simp [h]

theorem get?_modify_eq_some {t : Table α} {k i : Int} {f : α → α} {b : α} :
    (t.modify k f).get? i = some b ↔
      i = k ∧ (∃ a, t.get? i = some a ∧ f a = b) ∨ i ≠ k ∧ t.get? i = some b := by
  by_cases h : i = k <;> simp [get?_modify, h]

/-! ## Changing all rows at once -/

/-- Changes each row by its key, or removes it. -/
def collect {β : Type} (t : Table α) (f : Int → α → Option β) : Table β where
  rows := t.rows.filterMap fun x => (f x.1 x.2).map fun b => (x.1, b)
  ordered := by
    refine (List.pairwise_filterMap).2 (t.ordered.imp ?_)
    intro x y hxy u hu v hv
    obtain ⟨b, -, rfl⟩ := Option.map_eq_some_iff.1 hu
    obtain ⟨c, -, rfl⟩ := Option.map_eq_some_iff.1 hv
    exact hxy

@[simp] theorem get?_collect {β : Type} (t : Table α) (f : Int → α → Option β) (k : Int) :
    (t.collect f).get? k = (t.get? k).bind (f k) := by
  apply Option.ext
  intro b
  rw [← mem_rows_iff]
  simp only [collect, List.mem_filterMap, Option.map_eq_some_iff, Prod.mk.injEq,
    Option.bind_eq_some_iff]
  constructor
  · rintro ⟨⟨j, a⟩, hmem, c, hc, rfl, rfl⟩
    exact ⟨a, mem_rows_iff.1 hmem, hc⟩
  · rintro ⟨a, ha, hb⟩
    exact ⟨(k, a), mem_rows_iff.2 ha, b, hb, rfl, rfl⟩

theorem get?_collect_eq_some {β : Type} {t : Table α} {f : Int → α → Option β} {k : Int} {b : β} :
    (t.collect f).get? k = some b ↔ ∃ a, t.get? k = some a ∧ f k a = some b := by
  rw [get?_collect, Option.bind_eq_some_iff]

/-- Rows that are changed into themselves make the same table. -/
theorem collect_eq_self {t : Table α} {f : Int → α → Option α}
    (h : ∀ {k a}, t.get? k = some a → f k a = some a) : t.collect f = t := by
  apply ext
  intro k
  rw [get?_collect]
  cases hk : t.get? k with
  | none => rfl
  | some a => exact h hk

/-- A row that is changed before all rows are. -/
theorem collect_modify {β : Type} (t : Table α) (k : Int) (g : α → α) (f : Int → α → Option β) :
    (t.modify k g).collect f = t.collect fun i a => f i (if i = k then g a else a) := by
  apply ext
  intro i
  rw [get?_collect, get?_collect, get?_modify]
  by_cases hi : i = k
  · subst hi
    cases t.get? i <;> simp
  · simp [hi]

/-! ## The rows after a row was put in or taken out -/

theorem insertRow_perm {k : Int} {a : α} {l : List (Int × α)} (h : lookup k l = none) :
    (insertRow k a l).Perm ((k, a) :: l) := by
  induction l with
  | nil => exact .refl _
  | cons y rest ih =>
      obtain ⟨j, b⟩ := y
      have hj : ¬ k = j := fun e => by simp [lookup, e] at h
      have hrest : lookup k rest = none := by simpa [lookup, Ne.symm hj] using h
      simp only [insertRow]
      split
      · exact .refl _
      · exact ((ih hrest).cons (j, b)).trans (.swap _ _ _)

/-- A row under a new key is one row more. -/
theorem toList_insert_perm {t : Table α} {k : Int} (h : t.get? k = none) (a : α) :
    (t.insert k a).toList.Perm (a :: t.toList) :=
  (insertRow_perm (a := a) h).map Prod.snd

/-- A row that is removed is one row less. -/
theorem toList_erase_perm {t : Table α} {k : Int} {a : α} (h : t.get? k = some a) :
    t.toList.Perm (a :: (t.erase k).toList) := by
  have heq : t = (t.erase k).insert k a := by
    apply ext
    intro i
    by_cases hi : i = k <;> simp [hi, h]
  have hnone : (t.erase k).get? k = none := by simp
  have hperm := toList_insert_perm hnone a
  rw [← heq] at hperm
  exact hperm

/-! ## Putting in several rows -/

theorem get?_foldl_insert_of_not_mem {id : α → Int} {l : List α} {t : Table α} {k : Int}
    (h : k ∉ l.map id) : (l.foldl (fun t x => t.insert (id x) x) t).get? k = t.get? k := by
  induction l generalizing t with
  | nil => rfl
  | cons x rest ih =>
      rw [List.map_cons, List.mem_cons, not_or] at h
      rw [List.foldl_cons, ih h.2, get?_insert, if_neg h.1]

theorem of_get?_foldl_insert {id : α → Int} {l : List α} {t : Table α} {k : Int} {x : α}
    (h : (l.foldl (fun t x => t.insert (id x) x) t).get? k = some x) :
    (x ∈ l ∧ id x = k) ∨ t.get? k = some x := by
  induction l generalizing t with
  | nil => exact .inr h
  | cons y rest ih =>
      rcases ih h with ⟨hx, hk⟩ | hx
      · exact .inl ⟨List.mem_cons_of_mem _ hx, hk⟩
      · rw [get?_insert] at hx
        by_cases hk : k = id y
        · rw [if_pos hk] at hx
          obtain rfl := Option.some.inj hx
          exact .inl ⟨List.mem_cons_self, hk.symm⟩
        · rw [if_neg hk] at hx
          exact .inr hx

end Table

end DoubleEntry
