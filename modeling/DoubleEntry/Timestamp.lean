import DoubleEntry.Timestamp.Calendar
set_option autoImplicit false

/-! # Timestamps

A point in time in universal time, to the nanosecond, between the start of the year -262143 and the
end of the year 262142. A leap second is the second after the 59th of some minute: it is kept as
that 59th second with a thousand million nanoseconds or more.
-/

namespace DoubleEntry

/-- A point in time. -/
structure Timestamp where
  /-- Seconds since 1970-01-01T00:00:00Z, not counting leap seconds. -/
  second : Int
  /-- Nanoseconds into the second, and into the leap second that follows it. -/
  nano : Nat
  first_le : -8334601228800 ≤ second
  le_last : second ≤ 8210266876799
  nano_lt : nano < 2000000000
  leap : 1000000000 ≤ nano → second % 60 = 59
  deriving DecidableEq, Repr

namespace Timestamp

/-- The timestamp with the given second and nanosecond, if there is one. -/
def ofSecond? (second : Int) (nano : Nat) : Option Timestamp :=
  if h : (-8334601228800 ≤ second ∧ second ≤ 8210266876799) ∧ nano < 2000000000 ∧
      (1000000000 ≤ nano → second % 60 = 59) then
    some ⟨second, nano, h.1.1, h.1.2, h.2.1, h.2.2⟩
  else none

/-- 1970-01-01T00:00:00Z. -/
def epoch : Timestamp := ⟨0, 0, by decide, by decide, by decide, by decide⟩

instance : Inhabited Timestamp := ⟨epoch⟩

/-- The timestamp a number of microseconds after 2000-01-01T00:00:00Z, if it is in range. -/
def ofMicroseconds2000? (n : Int) : Option Timestamp :=
  ofSecond? (946684800 + n / 1000000) ((n % 1000000).toNat * 1000)

/-- The date of a timestamp. -/
def date (t : Timestamp) : Date := Date.ofDays (t.second / 86400)

/-- The second of the day of a timestamp, not counting leap seconds. -/
def secondOfDay (t : Timestamp) : Nat := (t.second % 86400).toNat

/-- Whether a timestamp lies in a leap second. -/
def isLeap (t : Timestamp) : Bool := 1000000000 ≤ t.nano

theorem ofSecond?_self (t : Timestamp) : ofSecond? t.second t.nano = some t := by
  unfold ofSecond?
  rw [dif_pos ⟨⟨t.first_le, t.le_last⟩, t.nano_lt, t.leap⟩]

theorem ofSecond?_eq_some {second : Int} {nano : Nat} {t : Timestamp}
    (h : ofSecond? second nano = some t) : t.second = second ∧ t.nano = nano := by
  unfold ofSecond? at h
  split at h
  · cases h; exact ⟨rfl, rfl⟩
  · cases h

end Timestamp

end DoubleEntry
