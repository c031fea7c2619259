import DoubleEntry.Proofs.Dates
import DoubleEntry.Text.Numeral
import DoubleEntry.Timestamp.Rfc3339
set_option autoImplicit false

/-! # A written timestamp reads back

The reader of timestamps takes a text apart piece by piece: years, two-digit fields, fractions and
offsets. For each piece there is one statement that it is read from what is written of it, with any
text behind it that cannot belong to it. Put together they give `Timestamp.parse_render`: every
timestamp is read from its text, leap seconds and years of more than four digits among them; and
`Timestamp.parse_clock` for the texts of clocks that are ahead of universal time or behind it.
-/

namespace DoubleEntry

namespace Text

theorem isBlank_of_isDigit {c : Char} (h : isDigit c = true) : isBlank c = false := by
  have hrange : 48 ≤ c.toNat ∧ c.toNat ≤ 57 := by
    simpa [isDigit, Char.le_def, UInt32.le_iff_toNat_le] using h
  refine List.any_eq_false.2 fun r hr => ?_
  have hclear : ∀ r ∈ blankRanges, r.2 < 48 ∨ 57 < r.1 := by decide
  have := hclear r hr
  simp only [Bool.and_eq_true, decide_eq_true_eq]
  omega

theorem trimLeft_of_head {cs : List Char} (h : ∀ c ∈ cs.head?, isBlank c = false) :
    trimLeft cs = cs := by
  cases cs with
  | nil => rfl
  | cons c cs => rw [trimLeft, List.dropWhile_cons, h c rfl]; rfl

/-- Zeros in front of a number do not change it. -/
theorem ofDigits_padded (w n : Nat) : ofDigits (padded w n) = n := by
  have hzeros (k : Nat) :
      (List.replicate k '0').foldl (fun n c => n * 10 + digitValue c) 0 = 0 := by
    induction k with
    | zero => rfl
    | succ k ih => rw [List.replicate_succ, List.foldl_cons, show digitValue '0' = 0 from rfl, ih]
  rw [ofDigits, padded, List.foldl_append, hzeros]
  exact ofDigits_toDigits n

theorem all_isDigit_padded (w n : Nat) : (padded w n).all isDigit = true := by
  rw [padded, List.all_append, all_isDigit_toDigits, Bool.and_true, List.all_replicate]
  exact ite_self true

theorem padded_ne_nil (w n : Nat) : padded w n ≠ [] := by
  intro h
  exact digitsOnto_ne_nil n [] (List.append_eq_nil_iff.1 h).2

end Text

namespace Timestamp

open Text

namespace Reader

variable {α β : Type}

theorem run_bind_of {r : Reader α} {next : α → Reader β} {cs rest : List Char} {a : α}
    (h : r.run cs = .ok (a, rest)) : (r >>= next).run cs = (next a).run rest := by
  rw [StateT.run_bind, h]
  rfl

/-- White space is skipped where there is none. -/
theorem run_blanks {cs : List Char} (h : ∀ c ∈ cs.head?, isBlank c = false) :
    blanks.run cs = .ok ((), cs) := by
  rw [blanks, StateT.run_modify, trimLeft_of_head h]
  rfl

theorem run_blanks_digits {digits : List Char} (hall : digits.all isDigit = true)
    (hne : digits ≠ []) (rest : List Char) :
    blanks.run (digits ++ rest) = .ok ((), digits ++ rest) := by
  obtain ⟨c, cs, rfl⟩ := List.exists_cons_of_ne_nil hne
  rw [List.all_cons, Bool.and_eq_true] at hall
  refine run_blanks fun d hd => ?_
  obtain rfl : c = d := Option.some.inj hd
  exact isBlank_of_isDigit hall.1

theorem run_literal (c : Char) (rest : List Char) :
    (literal c).run (c :: rest) = .ok ((), rest) := by
  rw [literal, run_bind_of (StateT.run_get _)]
  exact (congrArg (StateT.run · _) (if_pos rfl)).trans (StateT.run_set _ _)

/-- A mark between two parts is read. -/
theorem run_mark {c : Char} (h : isBlank c = false) (next : Reader α) (rest : List Char) :
    (do blanks; literal c; next).run (c :: rest) = next.run rest := by
  rw [run_bind_of (run_blanks (by simpa using h)), run_bind_of (run_literal c rest)]

/-! ## Numbers -/

/-- The part of a text in which the digits of a number of the given width are looked for. -/
def window : Option Nat → List Char → List Char
  | some w, cs => cs.take w
  | none, cs => cs

/-- The digits of a number end here: either the width is used up, or what follows is no digit. -/
def Ends (width : Option Nat) (digits rest : List Char) : Prop :=
  width = some digits.length ∨
    (∀ w ∈ width, digits.length ≤ w) ∧ ∀ c ∈ rest.head?, isDigit c = false

theorem takeWhile_isDigit_append {digits rest : List Char} (hall : digits.all isDigit = true)
    (hrest : ∀ c ∈ rest.head?, isDigit c = false) :
    (digits ++ rest).takeWhile isDigit = digits := by
  rw [List.takeWhile_append_of_pos (List.all_eq_true.1 hall)]
  cases rest with
  | nil => exact List.append_nil digits
  | cons c cs => rw [List.takeWhile_cons, hrest c rfl]; exact List.append_nil digits

theorem takeWhile_isDigit_window {width : Option Nat} {digits rest : List Char}
    (hall : digits.all isDigit = true) (hends : Ends width digits rest) :
    (window width (digits ++ rest)).takeWhile isDigit = digits := by
  rcases hends with rfl | ⟨hwidth, hrest⟩
  · rw [window, List.take_left]
    simpa using @takeWhile_isDigit_append digits [] hall nofun
  · cases width with
    | none => exact takeWhile_isDigit_append hall hrest
    | some w =>
        rw [window, List.take_append, List.take_of_length_le (hwidth w rfl)]
        refine takeWhile_isDigit_append hall fun c hc => hrest c ?_
        rw [List.head?_take] at hc
        split at hc
        · cases hc
        · exact hc

/-- A number is read from its digits, up to where they end. -/
theorem run_number {width : Option Nat} {digits rest : List Char}
    (hall : digits.all isDigit = true) (hne : digits ≠ [])
    (hle : ofDigits digits ≤ 9223372036854775807) (hends : Ends width digits rest) :
    (number width).run (digits ++ rest) = .ok (ofDigits digits, rest) := by
  have hdigits := takeWhile_isDigit_window hall hends
  have hsome : (digits ++ rest).isEmpty = false := by
    rw [List.isEmpty_eq_false_iff]
    exact fun h => hne (List.append_eq_nil_iff.1 h).1
  have hdigit : digits.isEmpty = false := List.isEmpty_eq_false_iff.2 hne
  rw [number, run_bind_of (StateT.run_get _)]
  cases width
  all_goals
    simp only [window] at hdigits
    simp only [hdigits, hsome, hdigit, Bool.false_eq_true, if_false, if_neg (Nat.not_lt.2 hle)]
    rw [List.drop_left, run_bind_of (StateT.run_set _ _)]
    rfl

theorem lastDigits_ne_nil (w n : Nat) : lastDigits (w + 1) n ≠ [] := by simp [lastDigits]

/-- A number is read from as many digits as the width allows. -/
theorem run_number_lastDigits {w n : Nat} (h : n < Nat.pow 10 (w + 1))
    (hle : n ≤ 9223372036854775807) (rest : List Char) :
    (number (some (w + 1))).run (lastDigits (w + 1) n ++ rest) = .ok (n, rest) := by
  have hvalue : ofDigits (lastDigits (w + 1) n) = n :=
    (ofDigits_lastDigits (w + 1) n).trans (Nat.mod_eq_of_lt h)
  have hends : Ends (some (w + 1)) (lastDigits (w + 1) n) rest := .inl (by rw [length_lastDigits])
  rw [run_number (all_isDigit_lastDigits _ n) (lastDigits_ne_nil w n) (by rwa [hvalue]) hends,
    hvalue]

/-- A field of two digits is read from them. -/
theorem run_field {lo hi n : Nat} (hlo : lo ≤ n) (hhi : n ≤ hi) (h : n < 100) (rest : List Char) :
    (field lo hi).run (lastDigits 2 n ++ rest) = .ok (n, rest) := by
  have hblanks := run_blanks_digits (all_isDigit_lastDigits 2 n) (lastDigits_ne_nil 1 n) rest
  rw [field, run_bind_of hblanks, run_bind_of (run_number_lastDigits h (by omega) rest)]
  simp only
  rw [if_neg (by omega)]
  rfl

/-- A year of four digits is read from them. -/
theorem run_year_four {n : Nat} (hn : n ≤ 9999) (rest : List Char) :
    year.run (lastDigits 4 n ++ rest) = .ok ((n : Int), rest) := by
  have hall := all_isDigit_lastDigits 4 n
  have hne := lastDigits_ne_nil 3 n
  have hnumber := run_number_lastDigits (w := 3) (show n < 10000 by omega) (by omega) rest
  have hblanks := run_blanks_digits hall hne rest
  obtain ⟨c, cs, hcs⟩ := List.exists_cons_of_ne_nil hne
  rw [hcs] at hnumber hblanks hall ⊢
  rw [List.all_cons, Bool.and_eq_true] at hall
  have hminus : c ≠ '-' := by
    rintro rfl
    exact absurd hall.1 (by decide)
  have hplus : c ≠ '+' := by
    rintro rfl
    exact absurd hall.1 (by decide)
  rw [List.cons_append] at hnumber hblanks ⊢
  rw [year, run_bind_of hblanks, bind_assoc, run_bind_of (StateT.run_get _)]
  split
  · next h => exact absurd (List.cons.inj h).1 hminus
  · next h => exact absurd (List.cons.inj h).1 hplus
  · rw [bind_assoc, run_bind_of hnumber, pure_bind]
    simp only
    rw [if_neg (by omega)]
    rfl

/-- A year behind a sign is read, when no digit follows. -/
theorem run_year_signed {sign : Char} {n : Nat} {y : Int}
    (hsign : sign = '-' ∧ y = -n ∨ sign = '+' ∧ y = n) (hn : n ≤ 2147483647) {rest : List Char}
    (hrest : ∀ c ∈ rest.head?, isDigit c = false) :
    year.run (sign :: padded 4 n ++ rest) = .ok (y, rest) := by
  have hnumber := run_number (all_isDigit_padded 4 n) (padded_ne_nil 4 n)
    (by rw [ofDigits_padded]; omega) (show Ends none _ rest from .inr ⟨nofun, hrest⟩)
  rw [ofDigits_padded] at hnumber
  have hblank : ∀ c ∈ (sign :: padded 4 n ++ rest).head?, isBlank c = false := by
    rintro c ⟨⟩
    rcases hsign with ⟨rfl, -⟩ | ⟨rfl, -⟩ <;> decide
  rw [year, run_bind_of (run_blanks hblank), bind_assoc, run_bind_of (StateT.run_get _)]
  rcases hsign with ⟨rfl, rfl⟩ | ⟨rfl, rfl⟩
  all_goals
    simp only [List.cons_append, bind_assoc, pure_bind]
    rw [run_bind_of (StateT.run_set _ _), run_bind_of hnumber, if_neg (by omega)]
    rfl

/-- A year is read from its text, when no digit follows. -/
theorem run_year {y : Int} (hy : -2147483647 ≤ y ∧ y ≤ 2147483647) {rest : List Char}
    (hrest : ∀ c ∈ rest.head?, isDigit c = false) :
    year.run (renderYear y ++ rest) = .ok (y, rest) := by
  unfold renderYear
  split
  · next hfour =>
      have := run_year_four (n := y.toNat) (by omega) rest
      rwa [Int.toNat_of_nonneg hfour.1] at this
  · refine run_year_signed ?_ (by omega) hrest
    split
    · exact .inl ⟨rfl, by omega⟩
    · exact .inr ⟨rfl, by omega⟩

/-! ## Fractions and offsets -/

theorem run_separator (rest : List Char) : separator.run ('T' :: rest) = .ok ((), rest) := by
  rw [separator, run_bind_of (StateT.run_get _)]
  rfl

/-- A fraction is read from its leading digits, when no digit follows. -/
theorem run_fraction_digits {w : Nat} (hpos : w ≠ 0) (hle : w ≤ 9) (n : Nat) {rest : List Char}
    (hrest : ∀ c ∈ rest.head?, isDigit c = false) :
    fraction.run ('.' :: lastDigits w n ++ rest) =
      .ok (n % Nat.pow 10 w * Nat.pow 10 (9 - w), rest) := by
  obtain ⟨k, rfl⟩ := Nat.exists_eq_succ_of_ne_zero hpos
  have hbound : n % Nat.pow 10 (k + 1) ≤ 9223372036854775807 := by
    have hlt := Nat.mod_lt n (show 0 < Nat.pow 10 (k + 1) from Nat.pow_pos (by decide))
    have hmono : Nat.pow 10 (k + 1) ≤ Nat.pow 10 9 := Nat.pow_le_pow_right (by decide) hle
    have : Nat.pow 10 9 = 1000000000 := rfl
    omega
  have hnumber := run_number (all_isDigit_lastDigits (k + 1) n) (lastDigits_ne_nil k n)
    (by rwa [ofDigits_lastDigits])
    (show Ends (some 9) _ rest from .inr ⟨by simpa [length_lastDigits] using hle, hrest⟩)
  have hdrop : rest.dropWhile isDigit = rest := by
    cases rest with
    | nil => rfl
    | cons c cs => rw [List.dropWhile_cons, hrest c rfl]; rfl
  have hlength : (lastDigits (k + 1) n ++ rest).length - rest.length = k + 1 := by
    rw [List.length_append, length_lastDigits, Nat.add_sub_cancel]
  rw [ofDigits_lastDigits] at hnumber
  rw [List.cons_append, fraction, run_bind_of (StateT.run_get _)]
  simp only
  rw [run_bind_of (StateT.run_set _ _), run_bind_of hnumber, run_bind_of (StateT.run_get _), hdrop,
    run_bind_of (StateT.run_set _ _), hlength]
  rfl

/-- A fraction is read from its text, when neither a point nor a digit follows. -/
theorem run_fraction {n : Nat} (hn : n < 1000000000) {rest : List Char}
    (hpoint : ∀ c ∈ rest.head?, c ≠ '.') (hrest : ∀ c ∈ rest.head?, isDigit c = false) :
    fraction.run (renderFraction n ++ rest) = .ok (n, rest) := by
  unfold renderFraction
  split
  · next hzero =>
      rw [List.nil_append, fraction, run_bind_of (StateT.run_get _)]
      split
      · exact absurd rfl (hpoint _ rfl)
      · rw [hzero]
        rfl
  · split
    · have hvalue : n / 1000000 % Nat.pow 10 3 * Nat.pow 10 (9 - 3) = n := by
        change n / 1000000 % 1000 * 1000000 = n
        omega
      rw [run_fraction_digits (by decide) (by decide) _ hrest, hvalue]
    · split
      · have hvalue : n / 1000 % Nat.pow 10 6 * Nat.pow 10 (9 - 6) = n := by
          change n / 1000 % 1000000 * 1000 = n
          omega
        rw [run_fraction_digits (by decide) (by decide) _ hrest, hvalue]
      · have hvalue : n % Nat.pow 10 9 * Nat.pow 10 (9 - 9) = n := by
          change n % 1000000000 * 1 = n
          omega
        rw [run_fraction_digits (by decide) (by decide) _ hrest, hvalue]

/-- Two digits of an offset are read. -/
theorem run_twoDigits (n : Nat) (rest : List Char) :
    twoDigits.run (lastDigits 2 n ++ rest) =
      .ok ((digitChar (n / 10 % 10), digitChar (n % 10)), rest) := by
  have h₁ := isDigit_digitChar (Nat.mod_lt (n / 10) (show 0 < 10 by decide))
  have h₂ := isDigit_digitChar (Nat.mod_lt n (show 0 < 10 by decide))
  simp only [lastDigits, List.nil_append, List.cons_append]
  rw [twoDigits, run_bind_of (StateT.run_get _)]
  simp only [h₁, h₂, Bool.and_self, if_true]
  rfl

theorem ofDigits_two {n : Nat} (h : n < 100) :
    ofDigits [digitChar (n / 10 % 10), digitChar (n % 10)] = n :=
  (ofDigits_lastDigits 2 n).trans (Nat.mod_eq_of_lt h)

theorem digitChar_lt_six {n : Nat} (h : n < 6) : ¬ '6' ≤ digitChar n := by
  have : ∀ m : Fin 6, ¬ '6' ≤ digitChar m := by decide
  exact this ⟨n, h⟩

/-- An offset, behind universal time or ahead of it, as a clock shows it. -/
def offsetChars (behind : Bool) (hours minutes : Nat) : List Char :=
  (if behind then '-' else '+') :: (lastDigits 2 hours ++ ':' :: lastDigits 2 minutes)

/-- The seconds of an offset. -/
def offsetSeconds (behind : Bool) (hours minutes : Nat) : Int :=
  if behind then -(hours * 3600 + minutes * 60 : Int) else hours * 3600 + minutes * 60

/-- A sign, hours and minutes are read as the offset they make. -/
theorem run_signed (behind : Bool) {hours minutes : Nat} (hh : hours ≤ 23) (hm : minutes ≤ 59)
    (cs : List Char) :
    (offset.signed (offsetChars behind hours minutes)).run cs =
      .ok (offsetSeconds behind hours minutes, []) := by
  have hcolon : (':' :: lastDigits 2 minutes).dropWhile (fun c => c == ':' || isBlank c) =
      lastDigits 2 minutes ++ [] := by
    have hdigit := isDigit_digitChar (Nat.mod_lt (minutes / 10) (show 0 < 10 by decide))
    have hne : digitChar (minutes / 10 % 10) ≠ ':' := by
      intro h
      rw [h] at hdigit
      exact absurd hdigit (by decide)
    simp [lastDigits, isBlank_of_isDigit hdigit, hne]
  have hsix := digitChar_lt_six (show minutes / 10 % 10 < 6 by omega)
  rw [offsetChars]
  generalize hsign : (if behind then '-' else '+') = sign
  have hnotZulu : ¬ (sign = 'Z' ∨ sign = 'z') := by
    cases behind <;> subst hsign <;> decide
  have hbehind : (if sign = '+' then pure false
      else if sign = '-' ∨ sign = '−' then pure true else throw .invalid : Reader Bool) =
        pure behind := by
    cases behind <;> subst hsign <;> rfl
  rw [offset.signed, if_neg hnotZulu, hbehind, pure_bind, run_bind_of (StateT.run_set _ _),
    run_bind_of (run_twoDigits _ _), run_bind_of (StateT.run_modify _ _), hcolon,
    run_bind_of (run_twoDigits _ _)]
  simp only [hsix, if_false]
  rw [ofDigits_two (by omega), ofDigits_two (by omega)]
  rfl

/-- The text of an offset: nothing of it belongs to the fraction before it, and it is read as a
number of seconds of less than a day. -/
structure Zone (text : List Char) (seconds : Int) : Prop where
  not_point : ∀ c ∈ text.head?, c ≠ '.'
  not_digit : ∀ c ∈ text.head?, isDigit c = false
  not_blank : ∀ c ∈ text.head?, isBlank c = false
  less_day : -86400 < seconds ∧ seconds < 86400
  run : offset.run text = .ok (seconds, [])

/-- Universal time. -/
theorem zone_zulu : Zone ['Z'] 0 where
  not_point := by simp
  not_digit := by simp; decide
  not_blank := by simp; decide
  less_day := by decide
  run := by
    rw [offset, run_bind_of (StateT.run_get _)]
    rfl

/-- A sign, hours and minutes. -/
theorem zone_signed (behind : Bool) {hours minutes : Nat} (hh : hours ≤ 23) (hm : minutes ≤ 59) :
    Zone (offsetChars behind hours minutes) (offsetSeconds behind hours minutes) where
  not_point := by cases behind <;> simp [offsetChars]
  not_digit := by cases behind <;> simp [offsetChars] <;> decide
  not_blank := by cases behind <;> simp [offsetChars] <;> decide
  less_day := by
    unfold offsetSeconds
    split <;> omega
  run := by
    rw [offset, run_bind_of (StateT.run_get _), ← run_signed behind hh hm]
    cases behind <;> rfl

end Reader

/-- The text of a timestamp before its offset. -/
def clockChars (t : Timestamp) : List Char :=
  let s := t.secondOfDay
  let leap := if t.isLeap then 1 else 0
  renderYear t.date.year ++ '-' :: lastDigits 2 t.date.month ++ '-' :: lastDigits 2 t.date.day ++
    'T' :: lastDigits 2 (s / 3600) ++ ':' :: lastDigits 2 (s / 60 % 60) ++
    ':' :: lastDigits 2 (s % 60 + leap) ++ renderFraction (t.nano - leap * 1000000000)

/-- **What a clock shows is read as the time it shows, less the offset of the clock.** -/
theorem parseChars_clockChars (t : Timestamp) {zone : List Char} {seconds : Int}
    (hzone : Reader.Zone zone seconds) :
    parseChars (t.clockChars ++ zone) =
      match ofSecond? (t.second - seconds) t.nano with
      | some u => .ok u
      | none => .error .impossible := by
  have hyear := t.year_date
  have hdate : t.date.Valid := Date.valid_ofDays _
  have hday := hdate.day_le
  have hclock := t.secondOfDay_lt
  have hnano := t.nano_lt
  have hvalid : YearInRange t.date.year ∧ t.date.Valid ∧ -86400 < seconds ∧ seconds < 86400 :=
    ⟨hyear, hdate, hzone.less_day⟩
  obtain ⟨hmonth, hmonth', hday', -⟩ := hdate
  have hdash : isBlank '-' = false := by decide
  have hcolon : isBlank ':' = false := by decide
  simp only [clockChars, List.append_assoc, List.cons_append]
  -- A leap second shows as the second 60, which is read back as the 59th and a second more.
  have hleap : (if t.isLeap then 1 else 0) = 0 ∧ t.nano < 1000000000 ∨
      (if t.isLeap then 1 else 0) = 1 ∧ t.secondOfDay % 60 = 59 ∧ 1000000000 ≤ t.nano := by
    cases h : t.isLeap with
    | false => exact .inl ⟨rfl, Nat.not_le.1 (of_decide_eq_false h)⟩
    | true => exact .inr ⟨rfl, secondOfDay_of_isLeap h, of_decide_eq_true h⟩
  generalize (if t.isLeap then 1 else 0) = leap at hleap ⊢
  have hpair : (if t.secondOfDay % 60 + leap = 60
      then (59, t.nano - leap * 1000000000 + 1000000000)
      else (t.secondOfDay % 60 + leap, t.nano - leap * 1000000000)) =
        (t.secondOfDay % 60, t.nano) := by
    rcases hleap with ⟨rfl, -⟩ | ⟨rfl, h59, hnano⟩
    · rw [if_neg (by omega), Nat.add_zero, Nat.zero_mul, Nat.sub_zero]
    · rw [if_pos (by omega), h59, Nat.one_mul, Nat.sub_add_cancel hnano]
  have hsecond : t.date.toDays * 86400 + ((t.secondOfDay / 3600 * 3600 +
      t.secondOfDay / 60 % 60 * 60 + t.secondOfDay % 60 : Nat) : Int) = t.second := by
    rw [← second_eq]
    omega
  rw [parseChars, reader, Reader.run_bind_of (Reader.run_year (by omega) (by simp; decide)),
    Reader.run_mark hdash, Reader.run_bind_of (Reader.run_field hmonth hmonth' (by omega) _),
    Reader.run_mark hdash, Reader.run_bind_of (Reader.run_field hday' hday (by omega) _),
    Reader.run_bind_of (Reader.run_separator _),
    Reader.run_bind_of (Reader.run_field (Nat.zero_le _) (by omega) (by omega) _),
    Reader.run_mark hcolon,
    Reader.run_bind_of (Reader.run_field (Nat.zero_le _) (by omega) (by omega) _),
    Reader.run_mark hcolon,
    Reader.run_bind_of (Reader.run_field (Nat.zero_le _) (by omega) (by omega) _),
    Reader.run_bind_of (Reader.run_fraction (by omega) hzone.not_point hzone.not_digit),
    Reader.run_bind_of (Reader.run_blanks hzone.not_blank), Reader.run_bind_of hzone.run,
    Reader.run_bind_of (Reader.run_blanks (by simp)), Reader.run_bind_of (StateT.run_get _)]
  simp only [List.isEmpty_nil, Bool.not_true, Bool.false_eq_true, if_false, hpair, hsecond]
  rw [if_neg (not_not_intro hvalid)]
  cases ofSecond? (t.second - seconds) t.nano <;> rfl

/-- What a clock shows that is behind universal time or ahead of it is read as the time it shows,
less its offset. -/
theorem parse_clock (t : Timestamp) (behind : Bool) {hours minutes : Nat} (hh : hours ≤ 23)
    (hm : minutes ≤ 59) :
    parse (String.ofList (t.clockChars ++ Reader.offsetChars behind hours minutes)) =
      match ofSecond? (t.second - Reader.offsetSeconds behind hours minutes) t.nano with
      | some u => .ok u
      | none => .error .impossible := by
  rw [parse, String.toList_ofList, parseChars_clockChars t (Reader.zone_signed behind hh hm)]

/-- **A timestamp is read from its text.** -/
theorem parse_render (t : Timestamp) : parse t.render = .ok t := by
  have hchars : t.renderChars = t.clockChars ++ ['Z'] := rfl
  rw [parse, render, String.toList_ofList, hchars, parseChars_clockChars t Reader.zone_zulu,
    Int.sub_zero, ofSecond?_self]

end Timestamp

end DoubleEntry
