import DoubleEntry.Decimal.Read
import DoubleEntry.Settings.Node
import DoubleEntry.Text.Blank
import DoubleEntry.Text.Reader
set_option autoImplicit false

/-! # RON files

Values as they are written in a program: structures with named fields, maps, tuples, lists, texts,
characters, numbers and optional values.
-/

namespace DoubleEntry.Settings.Ron

open DoubleEntry.Text

/-- Skips a comment that may hold others, after its beginning. -/
def blockComment : Nat → Nat → Reader Unit
  | 0, _ => Reader.fail
  | fuel + 1, depth => do
      if ← Reader.accept "*/" then
        match depth with
        | 0 => return
        | depth + 1 => blockComment fuel depth
      else if ← Reader.accept "/*" then blockComment fuel (depth + 1)
      else
        let _ ← Reader.next
        blockComment fuel depth

/-- Skips white space and comments. -/
def spaces : Reader Unit := do
  let n := (← Reader.rest).length
  let _ ← Reader.many (n + 1) do
    Reader.skipWhile isBlank
    if ← Reader.accept "//" then
      Reader.skipWhile fun c => c ≠ '\n'
      return some ()
    else if ← Reader.accept "/*" then
      blockComment (n + 1) 0
      return some ()
    else return none

/-- Whether a character can stand in a name. -/
def isNameChar (c : Char) : Bool := c.isAlphanum || c = '_'

/-- Whether a character can stand at the beginning of a name. -/
def isNameStart (c : Char) : Bool := c.isAlpha || c = '_'

/-- Takes a name if there is one. -/
def nameOrNone : Reader (Option String) := do
  match ← Reader.peek with
  | some c =>
      if isNameStart c then return some (String.ofList (← Reader.takeWhile isNameChar))
      else return none
  | none => return none

/-- The value of a digit in any base up to sixteen. -/
def digitOf? (base : Nat) (c : Char) : Option Nat :=
  let n :=
    if isDigit c then digitValue c
    else if c.isAlpha then c.toLower.toNat - 87
    else base
  if n < base then some n else none

/-- Reads the code point of a character. -/
def codePoint (digits : List Char) : Reader Char :=
  let n := digits.foldl (fun n c => n * 16 + (digitOf? 16 c).getD 0) 0
  if digits.isEmpty ∨ ¬ digits.all (fun c => (digitOf? 16 c).isSome) then Reader.fail
  else if n < 0xd800 ∨ (0xdfff < n ∧ n < 0x110000) then return Char.ofNat n
  else Reader.fail

/-- Reads what follows a backslash. -/
def escape : Reader Char := do
  match ← Reader.next with
  | 'n' => return '\n'
  | 'r' => return '\r'
  | 't' => return '\t'
  | '0' => return '\x00'
  | '\\' => return '\\'
  | '\'' => return '\''
  | '"' => return '"'
  | 'x' => codePoint (← Reader.takeExactly 2 fun _ => true)
  | 'u' =>
      Reader.expect "\x7b"
      let digits ← Reader.takeWhile (· ≠ '\x7d')
      Reader.expect "\x7d"
      if digits.length ≤ 6 then codePoint digits else Reader.fail
  | _ => Reader.fail

/-- Reads a text up to its closing quotation mark. -/
def quoted : Reader String := do
  let n := (← Reader.rest).length
  let cs ← Reader.many (n + 1) do
    let c ← Reader.next
    if c = '"' then return none
    else if c = '\\' then return some (← escape)
    else return some c
  return String.ofList cs

/-- Reads a text in which a backslash means itself, after its first letter: between quotation marks
with equally many number signs around them. -/
def raw : Reader String := do
  let marks ← Reader.takeWhile (· = '#')
  Reader.expect "\""
  let close := "\"" ++ String.ofList marks
  let n := (← Reader.rest).length
  let cs ← Reader.many (n + 1) do
    if ← Reader.accept close then return none else some <$> Reader.next
  return String.ofList cs

/-- Reads a character after its first quotation mark. -/
def character : Reader String := do
  let c ← Reader.next
  let c ← if c = '\\' then escape else pure c
  Reader.expect "'"
  return c.toString

/-- The number that digits denote in a base; underscores between them mean nothing. -/
def natural? (base : Nat) (cs : List Char) : Option Nat :=
  let digits := cs.filter (· ≠ '_')
  if digits.isEmpty ∨ cs.head? = some '_' then none
  else digits.foldlM (fun n c => (digitOf? base c).map (n * base + ·)) 0

/-- A whole number; beyond the range of whole numbers it is a floating point number. -/
def wholeNode (negative : Bool) (n : Nat) : Node :=
  let i : Int := if negative then -(n : Int) else n
  if isWhole i then .int i
  else .float (if negative then -(Decimal.toFloat n 0) else Decimal.toFloat n 0)

/-- Reads a number without its sign. -/
def number? (negative : Bool) (cs : List Char) : Option Node :=
  match cs with
  | '0' :: 'x' :: digits => (natural? 16 digits).map (wholeNode negative)
  | '0' :: 'o' :: digits => (natural? 8 digits).map (wholeNode negative)
  | '0' :: 'b' :: digits => (natural? 2 digits).map (wholeNode negative)
  | cs =>
      match natural? 10 cs with
      | some n => some (wholeNode negative n)
      | none =>
          let plain := cs.filter (· ≠ '_')
          match plain.head? with
          | some c =>
              if isDigit c ∨ c = '.' then
                (Decimal.unsigned? plain).map fun x => .float (if negative then -x else x)
              else none
          | none => none

/-- Whether a character can stand in a number. -/
def isNumberChar (c : Char) : Bool := c.isAlphanum || c = '.' || c = '_' || c = '+' || c = '-'

/-- A field or an item between round brackets, with its name if it has one. -/
abbrev Part := Option String × Node

/-- What the parts between round brackets make: a table if they have names, nothing if there are
none, otherwise a list. -/
def ofParts? (parts : List Part) : Option Node :=
  if parts.isEmpty then some .nothing
  else if parts.all fun p => p.1.isSome then
    some (.table (Members.ofList (parts.filterMap fun p => p.1.map fun n => (n, p.2))))
  else if parts.all fun p => p.1.isNone then some (.list (parts.map Prod.snd))
  else none

/-- Reads a value, nested at most so deep. -/
def value : Nat → Reader Node
  | 0 => Reader.fail
  | fuel + 1 => do
      let parts : Reader Node := do
        let parts ← Reader.listed (fuel + 1) spaces "," ")" do
          let before ← Reader.rest
          match ← nameOrNone with
          | some n =>
              spaces
              if ← Reader.accept ":" then
                spaces
                return ((some n, ← value fuel) : Part)
              else
                set before
                return (none, ← value fuel)
          | none => return (none, ← value fuel)
        match ofParts? parts with
        | some v => return v
        | none => Reader.fail
      match ← Reader.peek with
      | none => Reader.fail
      | some c =>
          if c = '"' then
            Reader.expect "\""
            return .text (← quoted)
          else if c = '\'' then
            Reader.expect "'"
            return .text (← character)
          else if c = '[' then
            Reader.expect "["
            return .list (← Reader.listed (fuel + 1) spaces "," "]" (value fuel))
          else if c = '\x7b' then
            Reader.expect "\x7b"
            let members ← Reader.listed (fuel + 1) spaces "," "\x7d" do
              let n ← value fuel
              spaces
              Reader.expect ":"
              spaces
              match n with
              | .text n => return (n, ← value fuel)
              | _ => Reader.fail
            return .table (Members.ofList members)
          else if c = '(' then
            Reader.expect "("
            parts
          else if (← Reader.startsWith "r\"") || (← Reader.startsWith "r#") then
            Reader.expect "r"
            return .text (← raw)
          else if isNameStart c then
            match ← nameOrNone with
            | some "true" => return .flag true
            | some "false" => return .flag false
            | some "None" => return .nothing
            | some "inf" => return .float (1.0 / 0.0)
            | some "NaN" => return .float (0.0 / 0.0)
            | some "Some" =>
                spaces
                Reader.expect "("
                spaces
                let v ← value fuel
                spaces
                let _ ← Reader.accept ","
                spaces
                Reader.expect ")"
                return v
            | _ =>
                spaces
                if ← Reader.accept "(" then parts else return .nothing
          else
            let negative ← Reader.accept "-"
            if !negative then
              let _ ← Reader.accept "+"
            match number? negative (← Reader.takeWhile isNumberChar) with
            | some n => return n
            | none => Reader.fail

/-- A value with white space around it. -/
def document (fuel : Nat) : Reader Node := do
  spaces
  let v ← value fuel
  spaces
  return v

/-- **Reads a RON file.** -/
def read? (text : String) : Option Members := do
  let cs := text.toList
  let v ← (document (cs.length + 1)).whole? cs
  v.members?

end DoubleEntry.Settings.Ron
