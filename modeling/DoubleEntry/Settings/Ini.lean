import DoubleEntry.Settings.Node
import DoubleEntry.Text.Blank
import DoubleEntry.Text.Reader
set_option autoImplicit false

/-! # INI files

Names and values with `=` or `:` between them, under the names of sections. All values are texts. A
backslash changes the meaning of the character after it, and parts of a value may stand between
quotation marks.
-/

namespace DoubleEntry.Settings.Ini

open DoubleEntry.Text

/-- A blank within a line. -/
def isLineBlank (c : Char) : Bool := isBlank c && c ≠ '\n' && c ≠ '\r'

/-- The value of a hexadecimal digit. -/
def hexValue? (c : Char) : Option Nat :=
  if isDigit c then some (digitValue c)
  else if 'a' ≤ c ∧ c ≤ 'f' then some (c.toNat - 87)
  else if 'A' ≤ c ∧ c ≤ 'F' then some (c.toNat - 55)
  else none

/-- Reads what follows a backslash. -/
def escape : Reader (List Char) := do
  match ← Reader.next with
  | '0' => return ['\x00']
  | 'a' => return ['\x07']
  | 'b' => return ['\x08']
  | 't' => return ['\t']
  | 'r' => return ['\r']
  | 'n' => return ['\n']
  | '\n' => return []
  | 'x' =>
      let digits ← Reader.takeExactly 4 fun c => (hexValue? c).isSome
      let n := digits.foldl (fun n c => n * 16 + (hexValue? c).getD 0) 0
      if n < 0xd800 ∨ 0xdfff < n then return [Char.ofNat n] else Reader.fail
  | c => return [c]

/-- Takes the text up to the first character of a class, which has to come. -/
def takeUntil (p : Char → Bool) : Reader String := do
  let n := (← Reader.rest).length
  let parts ← Reader.many (n + 1) do
    match ← Reader.peek with
    | none => Reader.fail
    | some c =>
        if p c then return none
        else
          let c ← Reader.next
          if c = '\\' then return some (← escape) else return some [c]
  return String.ofList parts.flatten

/-- Takes the text up to the end of the line. -/
def takeLine : Reader String := do
  let n := (← Reader.rest).length
  let parts ← Reader.many (n + 1) do
    match ← Reader.peek with
    | none => return none
    | some c =>
        if c = '\n' ∨ c = '\r' then return none
        else
          let c ← Reader.next
          if c = '\\' then return some (← escape) else return some [c]
  return String.ofList parts.flatten

/-- Reads a value: any parts between quotation marks, and the rest of the line. -/
def value : Reader String := do
  Reader.skipWhile isLineBlank
  let n := (← Reader.rest).length
  let parts ← Reader.many (n + 1) do
    match ← Reader.peek with
    | some '"' =>
        let _ ← Reader.next
        let part ← takeUntil (· = '"')
        let _ ← Reader.next
        return some part
    | some '\'' =>
        let _ ← Reader.next
        let part ← takeUntil (· = '\'')
        let _ ← Reader.next
        return some part
    | _ => return none
  let line := (← takeLine).toList
  let line := if parts.isEmpty then trim line else trimRight line
  return "".intercalate parts ++ String.ofList line

/-- What a part of a file says. -/
inductive Line where
  | remark
  | heading (name : String)
  | assign (name value : String)

/-- Reads one part of a file; nothing at the end. -/
def line? : Reader (Option Line) := do
  Reader.skipWhile isBlank
  match ← Reader.peek with
  | none => return none
  | some c =>
      if c = ';' ∨ c = '#' then
        Reader.skipWhile fun c => c ≠ '\n'
        return some .remark
      else if c = '[' then
        let _ ← Reader.next
        let name ← takeUntil (· = ']')
        let _ ← Reader.next
        return some (.heading (String.ofList (trim name.toList)))
      else
        let name ← takeUntil fun c => c = '=' || c = ':'
        let _ ← Reader.next
        let name := String.ofList (trim name.toList)
        if name.isEmpty then Reader.fail
        return some (.assign name (← value))

/-- A file that has been read up to some place, and the section that the place is in. -/
structure Draft where
  members : Members := []
  here : Option String := none

/-- Notes what a part of a file says. -/
def Draft.note (d : Draft) : Line → Draft
  | .remark => d
  | .heading name =>
      let members :=
        if (d.members.lookup name).bind Node.members? |>.isSome then d.members
        else d.members.set name (.table [])
      { members, here := some name }
  | .assign name value =>
      match d.here with
      | none => { d with members := d.members.set name (.text value) }
      | some here =>
          let members := ((d.members.lookup here).bind Node.members?).getD []
          { d with members := d.members.set here (.table (members.set name (.text value))) }

/-- **Reads an INI file.** -/
def read? (text : String) : Option Members := do
  let cs := text.toList
  let lines ← (Reader.many (cs.length + 1) line?).whole? cs
  return (lines.foldl Draft.note {}).members

end DoubleEntry.Settings.Ini
