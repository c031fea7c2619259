import DoubleEntry.Decimal.Read
import DoubleEntry.Settings.Node
import DoubleEntry.Text.Blank
import DoubleEntry.Text.Numeral
import DoubleEntry.Text.Reader
set_option autoImplicit false

/-! # JSON5 files

JSON with comments, names without quotation marks, both kinds of quotation marks, commas after the
last item, and more ways to write numbers.
-/

namespace DoubleEntry.Settings.JsonFive

open DoubleEntry.Text

/-- Skips white space and comments. -/
def spaces : Reader Unit := do
  let n := (← Reader.rest).length
  let _ ← Reader.many (n + 1) do
    Reader.skipWhile fun c => isBlank c || c = '\ufeff'
    if ← Reader.accept "//" then
      Reader.skipWhile fun c => c ≠ '\n' && c ≠ '\r'
      return some ()
    else if ← Reader.accept "/*" then
      let m := (← Reader.rest).length
      let _ ← Reader.many (m + 1) do
        if ← Reader.accept "*/" then return none
        else some <$> Reader.next
      return some ()
    else return none

/-- Whether a character is a hexadecimal digit. -/
def isHexDigit (c : Char) : Bool :=
  isDigit c || ('a' ≤ c && c ≤ 'f') || ('A' ≤ c && c ≤ 'F')

/-- The number that hexadecimal digits denote. -/
def ofHexDigits (cs : List Char) : Nat :=
  cs.foldl (fun n c => n * 16 + if isDigit c then digitValue c else c.toLower.toNat - 87) 0

/-- Reads what follows a backslash in a string; a line break there means nothing. -/
def escape : Reader (List Char) := do
  match ← Reader.next with
  | 'b' => return ['\x08']
  | 'f' => return ['\x0c']
  | 'n' => return ['\n']
  | 'r' => return ['\r']
  | 't' => return ['\t']
  | 'v' => return ['\x0b']
  | '0' => return ['\x00']
  | '\n' => return []
  | '\r' =>
      let _ ← Reader.accept "\n"
      return []
  | 'x' => return [Char.ofNat (ofHexDigits (← Reader.takeExactly 2 isHexDigit))]
  | 'u' =>
      let n := ofHexDigits (← Reader.takeExactly 4 isHexDigit)
      if n < 0xd800 ∨ 0xdfff < n then return [Char.ofNat n]
      else if n < 0xdc00 then
        Reader.expect "\\u"
        let low := ofHexDigits (← Reader.takeExactly 4 isHexDigit)
        if 0xdc00 ≤ low ∧ low ≤ 0xdfff then
          return [Char.ofNat (0x10000 + (n - 0xd800) * 0x400 + (low - 0xdc00))]
        else Reader.fail
      else Reader.fail
  | c => if isDigit c then Reader.fail else return [c]

/-- Reads a string up to its closing quotation mark. -/
def quoted (mark : Char) : Reader String := do
  let n := (← Reader.rest).length
  let parts ← Reader.many (n + 1) do
    let c ← Reader.next
    if c = mark then return none
    else if c = '\\' then return some (← escape)
    else if c = '\n' ∨ c = '\r' then Reader.fail
    else return some [c]
  return String.ofList parts.flatten

/-- Whether a character can stand in a name without quotation marks. -/
def isNameChar (c : Char) : Bool := c.isAlphanum || c = '_' || c = '$' || 128 ≤ c.toNat && !isBlank c

/-- Reads the name of a member. -/
def name : Reader String := do
  if ← Reader.accept "\"" then quoted '"'
  else if ← Reader.accept "'" then quoted '\''
  else
    let cs ← Reader.takeWhile isNameChar
    match cs with
    | [] => Reader.fail
    | c :: _ => if isDigit c then Reader.fail else return String.ofList cs

/-- Whether the whole part of a number is well written: no zero stands in front of other digits. -/
def isPlain (digits : List Char) : Bool := digits.length ≤ 1 || digits.head? ≠ some '0'

/-- The number that hexadecimal digits denote after `0x`, which has room in 32 bits. -/
def hexadecimal? (digits : List Char) : Option Node :=
  if digits.isEmpty ∨ ¬ digits.all isHexDigit ∨ Text.limit32 ≤ ofHexDigits digits then none
  else some (.int (ofHexDigits digits))

/-- Reads a number after its sign, if it has one. Hexadecimal numbers have no sign. -/
def number? (sign : Option Char) (cs : List Char) : Option Node :=
  let signed (n : Nat) : Int := if sign = some '-' then -(n : Int) else n
  match cs with
  | '0' :: x :: digits =>
      if x = 'x' ∨ x = 'X' then if sign.isSome then none else hexadecimal? digits
      else decimal? signed ('0' :: x :: digits)
  | cs => decimal? signed cs
where
  /-- Reads a decimal number: whole without a point and an exponent, and small enough. -/
  decimal? (signed : Nat → Int) (cs : List Char) : Option Node :=
    let float (cs : List Char) : Option Node :=
      (Decimal.unsigned? cs).map fun x => .float (if signed 1 < 0 then -x else x)
    match String.ofList cs with
    | "Infinity" | "NaN" => float cs
    | _ =>
        let whole := cs.takeWhile isDigit
        if ¬ isPlain whole ∨ (cs.head?.map Char.isAlpha).getD true then none
        else if whole.length = cs.length then
          if isWhole (signed (ofDigits whole)) then some (.int (signed (ofDigits whole)))
          else none
        else float cs

/-- Whether a character can stand in a number. -/
def isNumberChar (c : Char) : Bool := c.isAlphanum || c = '.' || c = '+' || c = '-'

/-- Reads a value, nested at most so deep. -/
def value : Nat → Reader Node
  | 0 => Reader.fail
  | fuel + 1 => do
      match ← Reader.peek with
      | some '"' =>
          Reader.expect "\""
          return .text (← quoted '"')
      | some '\'' =>
          Reader.expect "'"
          return .text (← quoted '\'')
      | some '[' =>
          Reader.expect "["
          return .list (← Reader.listed (fuel + 1) spaces "," "]" (value fuel))
      | some '\x7b' =>
          Reader.expect "\x7b"
          let members ← Reader.listed (fuel + 1) spaces "," "\x7d" do
            let n ← name
            spaces
            Reader.expect ":"
            spaces
            return (n, ← value fuel)
          return .table (Members.ofList members)
      | _ =>
          let sign ← if ← Reader.accept "-" then pure (some '-')
            else if ← Reader.accept "+" then pure (some '+')
            else pure none
          let cs ← Reader.takeWhile isNumberChar
          match String.ofList cs, sign with
          | "true", none => return .flag true
          | "false", none => return .flag false
          | "null", none => return .nothing
          | _, _ =>
              match number? sign cs with
              | some n => return n
              | none => Reader.fail

/-- A value with white space around it. -/
def document (fuel : Nat) : Reader Node := do
  spaces
  let v ← value fuel
  spaces
  return v

/-- **Reads a JSON5 file.** -/
def read? (text : String) : Option Members := do
  let cs := text.toList
  let v ← (document (cs.length + 1)).whole? cs
  v.members?

end DoubleEntry.Settings.JsonFive
