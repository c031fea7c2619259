import DoubleEntry.Text.Blank
import DoubleEntry.Text.Digits
import DoubleEntry.Timestamp
set_option autoImplicit false

/-! # Timestamps in the form of RFC 3339

`Timestamp.render` writes a timestamp in universal time, with the fewest of 0, 3, 6 and 9 digits of
the fraction that are exact; a year outside `0 … 9999` has a sign. `Timestamp.parse` reads a date, a
letter or blank, a time with any fraction and an offset, with white space allowed between the parts,
and converts to universal time. A second 60 is a leap second on both sides.
-/

namespace DoubleEntry.Timestamp

open DoubleEntry.Text

/-! ## Writing -/

/-- A year, with a sign when it does not have four digits. -/
def renderYear (y : Int) : List Char :=
  if 0 ≤ y ∧ y ≤ 9999 then lastDigits 4 y.toNat
  else (if y < 0 then '-' else '+') :: padded 4 y.natAbs

/-- A fraction of a second, given in nanoseconds. -/
def renderFraction (n : Nat) : List Char :=
  if n = 0 then []
  else if n % 1000000 = 0 then '.' :: lastDigits 3 (n / 1000000)
  else if n % 1000 = 0 then '.' :: lastDigits 6 (n / 1000)
  else '.' :: lastDigits 9 n

/-- The text of a timestamp, as a list of characters. -/
def renderChars (t : Timestamp) : List Char :=
  let s := t.secondOfDay
  let leap := if t.isLeap then 1 else 0
  renderYear t.date.year ++ '-' :: lastDigits 2 t.date.month ++ '-' :: lastDigits 2 t.date.day ++
    'T' :: lastDigits 2 (s / 3600) ++ ':' :: lastDigits 2 (s / 60 % 60) ++
    ':' :: lastDigits 2 (s % 60 + leap) ++ renderFraction (t.nano - leap * 1000000000) ++ ['Z']

/-- The text of a timestamp. -/
def render (t : Timestamp) : String := String.ofList t.renderChars

/-! ## Reading -/

/-- Why a text is not a timestamp. -/
inductive Malformed where
  | tooShort
  | invalid
  | tooLong
  | outOfRange
  | impossible
  deriving DecidableEq, Repr

/-- What is told about a text that is not a timestamp. -/
def Malformed.message : Malformed → String
  | .tooShort => "premature end of input"
  | .invalid => "input contains invalid characters"
  | .tooLong => "trailing input"
  | .outOfRange => "input is out of range"
  | .impossible => "no possible date and time matching input"

/-- A reader of the parts of a timestamp, on the text that is left. -/
abbrev Reader := StateT (List Char) (Except Malformed)

namespace Reader

/-- Skips white space. -/
def blanks : Reader Unit := modify trimLeft

/-- Reads one given character. -/
def literal (c : Char) : Reader Unit := do
  match ← get with
  | [] => throw .tooShort
  | d :: rest => if d = c then set rest else throw .invalid

/-- Reads a number of one digit or more, and of at most `width` digits if a width is given. -/
def number (width : Option Nat) : Reader Nat := do
  let cs ← get
  let digits := match width with
    | some w => (cs.take w).takeWhile isDigit
    | none => cs.takeWhile isDigit
  if cs.isEmpty then throw .tooShort
  if digits.isEmpty then throw .invalid
  let n := ofDigits digits
  if 9223372036854775807 < n then throw .outOfRange
  set (cs.drop digits.length)
  return n

/-- Reads a number of at most two digits that has to lie between two bounds. -/
def field (lo hi : Nat) : Reader Nat := do
  blanks
  let n ← number (some 2)
  if n < lo ∨ hi < n then throw .outOfRange
  return n

/-- Reads a year: four digits at most, or a sign and any number of digits. -/
def year : Reader Int := do
  blanks
  let y ← (do
    match ← get with
    | '-' :: rest => do
        set rest
        return -((← number none : Nat) : Int)
    | '+' :: rest => do
        set rest
        return ((← number none : Nat) : Int)
    | _ => return ((← number (some 4) : Nat) : Int) : Reader Int)
  if y < -2147483648 ∨ 2147483647 < y then throw .outOfRange
  return y

/-- Reads the letter between date and time. -/
def separator : Reader Unit := do
  match ← get with
  | [] => throw .tooShort
  | c :: rest => if c = 'T' ∨ c = 't' ∨ c = ' ' then set rest else throw .invalid

/-- Reads an optional fraction of a second, in nanoseconds. Digits after the ninth do not count. -/
def fraction : Reader Nat := do
  match ← get with
  | '.' :: rest => do
      set rest
      let n ← number (some 9)
      let left ← get
      set (left.dropWhile isDigit)
      return n * Nat.pow 10 (9 - (rest.length - left.length))
  | _ => return 0

/-- Reads two digits of an offset. The text is too short when less than two bytes are left. -/
def twoDigits : Reader (Char × Char) := do
  match ← get with
  | [] => throw .tooShort
  | [c] => if c.toNat < 128 then throw .tooShort else throw .invalid
  | c :: d :: rest => do
      if isDigit c && isDigit d then set rest else throw .invalid
      return (c, d)

/-- Reads an offset from universal time, in seconds. -/
def offset : Reader Int := do
  let cs ← get
  match cs with
  | u :: t :: c :: rest =>
      if u.toUpper = 'U' ∧ t.toUpper = 'T' ∧ c.toUpper = 'C' then do
        set rest
        return 0
      else signed cs
  | _ => signed cs
where
  /-- Reads `Z`, or a sign, hours and minutes. -/
  signed : List Char → Reader Int
    | [] => throw .tooShort
    | c :: rest => do
        if c = 'Z' ∨ c = 'z' then
          set rest
          return 0
        let negative ← (
          if c = '+' then pure false
          else if c = '-' ∨ c = '−' then pure true
          else throw .invalid : Reader Bool)
        set rest
        let (h₁, h₂) ← twoDigits
        modify (·.dropWhile fun c => c == ':' || isBlank c)
        let (m₁, m₂) ← twoDigits
        if '6' ≤ m₁ then throw .outOfRange
        let seconds : Int := ofDigits [h₁, h₂] * 3600 + ofDigits [m₁, m₂] * 60
        return if negative then -seconds else seconds

end Reader

/-- The years of dates that can be written. -/
def YearInRange (y : Int) : Prop := -262143 ≤ y ∧ y ≤ 262142

instance (y : Int) : Decidable (YearInRange y) := inferInstanceAs (Decidable (_ ∧ _))

/-- Reads a timestamp and converts it to universal time. -/
def reader : Reader Timestamp := do
  let year ← Reader.year
  Reader.blanks
  Reader.literal '-'
  let month ← Reader.field 1 12
  Reader.blanks
  Reader.literal '-'
  let day ← Reader.field 1 31
  Reader.separator
  let hour ← Reader.field 0 23
  Reader.blanks
  Reader.literal ':'
  let minute ← Reader.field 0 59
  Reader.blanks
  Reader.literal ':'
  let second ← Reader.field 0 60
  let fraction ← Reader.fraction
  Reader.blanks
  let offset ← Reader.offset
  Reader.blanks
  if !(← get).isEmpty then throw .tooLong
  let date : Date := ⟨year, month, day⟩
  if ¬ (YearInRange year ∧ date.Valid ∧ -86400 < offset ∧ offset < 86400) then throw .outOfRange
  let (second, nano) := if second = 60 then (59, fraction + 1000000000) else (second, fraction)
  let onClock := date.toDays * 86400 + (hour * 3600 + minute * 60 + second : Nat)
  match ofSecond? (onClock - offset) nano with
  | some t => return t
  | none => throw .impossible

/-- Reads a timestamp from a list of characters. -/
def parseChars (cs : List Char) : Except Malformed Timestamp := (·.1) <$> reader.run cs

/-- **Reads a timestamp.** -/
def parse (s : String) : Except Malformed Timestamp := parseChars s.toList

end DoubleEntry.Timestamp
