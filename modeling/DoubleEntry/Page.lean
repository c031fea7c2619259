set_option autoImplicit false

/-! # Pages of a listing

A page asks for at most `limit` rows after skipping `offset` rows. What is asked for may be any pair
of integers; what is used is the limit clamped to `1 … 100` and the offset clamped to `0 …`.
-/

namespace DoubleEntry

/-- A part of a listing, as it was asked for. -/
structure Page where
  limit : Int := 10
  offset : Int := 0
  deriving DecidableEq, Repr, Inhabited

namespace Page

/-- The greatest number of rows on a page. -/
def maxLimit : Int := 100

/-- The number of rows that the page can hold. -/
def clampedLimit (p : Page) : Int := max 1 (min p.limit maxLimit)

/-- The number of rows before the page. -/
def clampedOffset (p : Page) : Int := max 0 p.offset

/-- The rows of a listing that stand on the page. -/
def slice {α : Type} (p : Page) (rows : List α) : List α :=
  (rows.drop p.clampedOffset.toNat).take p.clampedLimit.toNat

theorem clampedLimit_pos (p : Page) : 1 ≤ p.clampedLimit := by
  unfold clampedLimit; omega

theorem clampedLimit_le (p : Page) : p.clampedLimit ≤ 100 := by
  unfold clampedLimit maxLimit; omega

theorem clampedOffset_nonneg (p : Page) : 0 ≤ p.clampedOffset := by
  unfold clampedOffset; omega

end Page

end DoubleEntry
