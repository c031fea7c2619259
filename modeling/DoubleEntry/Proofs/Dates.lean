import DoubleEntry.Timestamp
set_option autoImplicit false

/-! # Dates and their numbers

Every number of a day is the number of a valid date: `Date.valid_ofDays` and `Date.toDays_ofDays`.
A timestamp therefore has a date, whose year has bounds (`Timestamp.year_date`), and is given by
that date and the second of the day (`Timestamp.second_eq`).
-/

namespace DoubleEntry

namespace Date

/-- Counting up to the day that was found for a number gives the number again. -/
theorem dayOfYear_monthDay (lengths : List Nat) (n : Nat) :
    dayOfYear lengths (monthDay lengths n).1 (monthDay lengths n).2 = n := by
  induction lengths generalizing n with
  | nil => rfl
  | cons l rest ih =>
      simp only [monthDay]
      split
      · rfl
      · have h := ih (n - l)
        simp only [dayOfYear]
        omega

/-- A day of the year lies in one of its months, at a day that the month has. -/
theorem monthDay_lt {lengths : List Nat} {n : Nat} (h : n < lengths.foldr Nat.add 0) :
    (monthDay lengths n).1 < lengths.length ∧
      (monthDay lengths n).2 < lengths.getD (monthDay lengths n).1 0 := by
  induction lengths generalizing n with
  | nil => exact absurd h (Nat.not_lt_zero n)
  | cons l rest ih =>
      have hsum : n < l + rest.foldr Nat.add 0 := h
      simp only [monthDay]
      split
      · next hlt => exact ⟨Nat.succ_pos _, hlt⟩
      · have hrest := ih (n := n - l) (by omega)
        exact ⟨Nat.succ_lt_succ hrest.1, hrest.2⟩

/-- The day of its year, counted from zero, that a number stands for. -/
theorem dayInYear (n : Int) :
    ((n - daysBeforeYear (yearOfDay n)).toNat : Int) = n - daysBeforeYear (yearOfDay n) ∧
      (n - daysBeforeYear (yearOfDay n)).toNat <
        (monthLengths (isLeapYear (yearOfDay n))).foldr Nat.add 0 := by
  have hyear := daysBeforeYear_yearOfDay n
  rw [daysBeforeYear_succ] at hyear
  omega

/-- **The number of the date with a given number is that number.** -/
theorem toDays_ofDays (n : Int) : (ofDays n).toDays = n := by
  simp only [toDays, ofDays, Nat.add_sub_cancel, dayOfYear_monthDay]
  rw [(dayInYear (n + epoch)).1]
  omega

/-- **The date with a given number is valid.** -/
theorem valid_ofDays (n : Int) : (ofDays n).Valid := by
  have h := monthDay_lt (dayInYear (n + epoch)).2
  have hlength (leap : Bool) : (monthLengths leap).length = 12 := rfl
  rw [hlength] at h
  exact ⟨Nat.succ_pos _, h.1, Nat.succ_pos _, h.2⟩

/-- No month has more than 31 days. -/
theorem Valid.day_le {d : Date} (h : d.Valid) : d.day ≤ 31 := by
  have hmonth : ∀ leap, ∀ m : Fin 12, (monthLengths leap).getD m 0 ≤ 31 := by decide
  obtain ⟨hpos, hle, -, hday⟩ := h
  exact Nat.le_trans hday (hmonth _ ⟨d.month - 1, by omega⟩)

/-- A later year begins no earlier. -/
theorem daysBeforeYear_mono {x y : Int} (h : x ≤ y) : daysBeforeYear x ≤ daysBeforeYear y := by
  unfold daysBeforeYear
  omega

end Date

namespace Timestamp

/-- The year of a timestamp is neither before the first nor after the last year of timestamps. -/
theorem year_date (t : Timestamp) : -262143 ≤ t.date.year ∧ t.date.year ≤ 262142 := by
  have hfirst : Date.daysBeforeYear (-262143) = -96465292 + Date.epoch := by decide
  have hlast : Date.daysBeforeYear 262143 = 95026237 + Date.epoch := by decide
  have hday : -96465292 ≤ t.second / 86400 ∧ t.second / 86400 < 95026237 := by
    have := t.first_le
    have := t.le_last
    omega
  have hyear := Date.daysBeforeYear_yearOfDay (t.second / 86400 + Date.epoch)
  rw [show Date.yearOfDay (t.second / 86400 + Date.epoch) = t.date.year from rfl] at hyear
  constructor
  · refine Int.not_lt.1 fun hlt => ?_
    have := Date.daysBeforeYear_mono (show t.date.year + 1 ≤ -262143 by omega)
    omega
  · refine Int.not_lt.1 fun hlt => ?_
    have := Date.daysBeforeYear_mono (show 262143 ≤ t.date.year by omega)
    omega

/-- A timestamp is given by its date and the second of the day. -/
theorem second_eq (t : Timestamp) : t.date.toDays * 86400 + (t.secondOfDay : Int) = t.second := by
  rw [date, Date.toDays_ofDays, secondOfDay]
  omega

theorem secondOfDay_lt (t : Timestamp) : t.secondOfDay < 86400 := by
  unfold secondOfDay
  omega

/-- A leap second follows the 59th second of a minute. -/
theorem secondOfDay_of_isLeap {t : Timestamp} (h : t.isLeap = true) : t.secondOfDay % 60 = 59 := by
  have := t.leap (by simpa [isLeap] using h)
  unfold secondOfDay
  omega

end Timestamp

end DoubleEntry
