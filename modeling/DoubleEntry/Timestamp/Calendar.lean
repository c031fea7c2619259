set_option autoImplicit false

/-! # Calendar dates

Dates of the Gregorian calendar, extended to all years, and their numbers counted in days from
1970-01-01. `Date.toDays` counts, `Date.ofDays` finds the date with a given number.
-/

namespace DoubleEntry

/-- A date of the Gregorian calendar; months and days count from one. -/
structure Date where
  year : Int
  month : Nat
  day : Nat
  deriving DecidableEq, Repr, Inhabited

namespace Date

/-- Whether a year has a 29th of February. -/
def isLeapYear (y : Int) : Bool := y % 4 = 0 && (y % 100 ≠ 0 || y % 400 = 0)

/-- The lengths of the months of a year. -/
def monthLengths (leap : Bool) : List Nat :=
  [31, if leap then 29 else 28, 31, 30, 31, 30, 31, 31, 30, 31, 30, 31]

/-- A date is valid when its month has that day. -/
def Valid (d : Date) : Prop :=
  1 ≤ d.month ∧ d.month ≤ 12 ∧ 1 ≤ d.day ∧
    d.day ≤ (monthLengths (isLeapYear d.year)).getD (d.month - 1) 0

instance (d : Date) : Decidable d.Valid := inferInstanceAs (Decidable (_ ∧ _))

/-- The number of days from 0001-01-01 to the first day of a year. -/
def daysBeforeYear (y : Int) : Int := 365 * (y - 1) + (y - 1) / 4 - (y - 1) / 100 + (y - 1) / 400

/-- The number of 1970-01-01, counted from 0001-01-01. -/
def epoch : Int := 719162

/-- The number of days from the first day of the year to the given day of the year's `m`-th next
month, for the lengths of the months. -/
def dayOfYear : List Nat → Nat → Nat → Nat
  | l :: rest, m + 1, d => l + dayOfYear rest m d
  | _, _, d => d

/-- The month, counted from zero, and the day of the month, counted from zero, of a day of the
year. -/
def monthDay : List Nat → Nat → Nat × Nat
  | l :: rest, n =>
      if n < l then (0, n) else ((monthDay rest (n - l)).1 + 1, (monthDay rest (n - l)).2)
  | [], n => (0, n)

/-- The number of a date, counted in days from 1970-01-01. -/
def toDays (d : Date) : Int :=
  daysBeforeYear d.year + dayOfYear (monthLengths (isLeapYear d.year)) (d.month - 1) (d.day - 1) -
    epoch

/-- The year that holds the day with number `n`, counted from 0001-01-01. A cycle of 400 years has
146097 days, so the first guess is off by at most one. -/
def yearOfDay (n : Int) : Int :=
  let y := n * 400 / 146097 + 1
  if n < daysBeforeYear y then y - 1
  else if daysBeforeYear (y + 1) ≤ n then y + 1
  else y

/-- The date with a given number, counted in days from 1970-01-01. -/
def ofDays (n : Int) : Date :=
  let y := yearOfDay (n + epoch)
  let md := monthDay (monthLengths (isLeapYear y)) (n + epoch - daysBeforeYear y).toNat
  ⟨y, md.1 + 1, md.2 + 1⟩

/-- **A year holds the days between its first day and the first day of the next.** -/
theorem daysBeforeYear_yearOfDay (n : Int) :
    daysBeforeYear (yearOfDay n) ≤ n ∧ n < daysBeforeYear (yearOfDay n + 1) := by
  unfold yearOfDay daysBeforeYear
  simp only
  split
  · omega
  · split <;> omega

/-- The length of a year is the sum of the lengths of its months. -/
theorem daysBeforeYear_succ (y : Int) :
    daysBeforeYear (y + 1) =
      daysBeforeYear y + ((monthLengths (isLeapYear y)).foldr Nat.add 0 : Nat) := by
  unfold daysBeforeYear isLeapYear monthLengths
  by_cases h4 : y % 4 = 0 <;> by_cases h100 : y % 100 = 0 <;> by_cases h400 : y % 400 = 0 <;>
    simp [h4, h100, h400] <;> omega

end Date

end DoubleEntry
