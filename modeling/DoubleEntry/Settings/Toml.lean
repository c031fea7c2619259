import DoubleEntry.Decimal.Read
import DoubleEntry.Settings.Node
import DoubleEntry.Text.Reader
import DoubleEntry.Timestamp.Calendar
set_option autoImplicit false

/-! # TOML files

A file is read in two steps: first as a list of lines that assign values and open tables, then by
carrying the lines out, so that no value is assigned twice and no table opened twice.
-/

namespace DoubleEntry.Settings.Toml

open DoubleEntry.Text

/-! ## White space -/

/-- A blank within a line. -/
def isBlank (c : Char) : Bool := c = ' ' || c = '\t'

/-- A character that cannot stand in comments and strings. -/
def isControl (c : Char) : Bool := (c.toNat < 32 && c ≠ '\t') || c = '\x7f'

/-- Skips blanks. -/
def blanks : Reader Unit := Reader.skipWhile isBlank

/-- Takes a line break if there is one. -/
def lineBreak : Reader Bool := do
  if ← Reader.accept "\n" then return true
  else Reader.accept "\r\n"

/-- Skips a comment if there is one. -/
def comment : Reader Unit := do
  if ← Reader.accept "#" then Reader.skipWhile fun c => !isControl c

/-- Skips blanks, comments and line breaks. -/
def spaces : Reader Unit := do
  let n := (← Reader.rest).length
  let _ ← Reader.many (n + 1) do
    blanks
    comment
    if ← lineBreak then return some () else return none

/-- Skips what can stand after a value in its line, and the end of the line. -/
def lineEnd : Reader Unit := do
  blanks
  comment
  if ← Reader.atEnd then return
  else if ← lineBreak then return
  else Reader.fail

/-! ## Strings and keys -/

/-- Whether a character is a hexadecimal digit. -/
def isHexDigit (c : Char) : Bool :=
  isDigit c || ('a' ≤ c && c ≤ 'f') || ('A' ≤ c && c ≤ 'F')

/-- The value of a digit in any base up to sixteen. -/
def digitOf (c : Char) : Nat := if isDigit c then digitValue c else c.toLower.toNat - 87

/-- The number that digits denote in a base. -/
def inBase (base : Nat) (cs : List Char) : Nat := cs.foldl (fun n c => n * base + digitOf c) 0

/-- Reads a character that is given by its code point. -/
def codePoint (digits : Nat) : Reader Char := do
  let n := inBase 16 (← Reader.takeExactly digits isHexDigit)
  if n < 0xd800 ∨ (0xdfff < n ∧ n < 0x110000) then return Char.ofNat n else Reader.fail

/-- Reads what follows a backslash. -/
def escape : Reader Char := do
  match ← Reader.next with
  | 'b' => return '\x08'
  | 't' => return '\t'
  | 'n' => return '\n'
  | 'f' => return '\x0c'
  | 'r' => return '\r'
  | '"' => return '"'
  | '\\' => return '\\'
  | 'u' => codePoint 4
  | 'U' => codePoint 8
  | _ => Reader.fail

/-- Reads a string of one line up to its closing quotation mark. -/
def quotedLine (mark : Char) : Reader String := do
  let n := (← Reader.rest).length
  let cs ← Reader.many (n + 1) do
    let c ← Reader.next
    if c = mark then return none
    else if c = '\\' ∧ mark = '"' then return some (← escape)
    else if isControl c then Reader.fail
    else return some c
  return String.ofList cs

/-- Takes three quotation marks, with up to two more in front of them that belong to the string. -/
def closingMarks (mark : Char) : Reader (Option (List Char)) := do
  let marks := ((← Reader.rest).takeWhile (· = mark)).length
  if marks < 3 then return none
  else if 5 < marks then Reader.fail
  else some <$> (List.take (marks - 3)) <$> Reader.takeExactly marks (· = mark)

/-- Reads a string of several lines up to its closing quotation marks. A line break in front does
not count; after a backslash at the end of a line all white space is left out. -/
def quotedLines (mark : Char) : Reader String := do
  let _ ← lineBreak
  let n := (← Reader.rest).length
  let parts ← Reader.many (n + 1) do
    match ← closingMarks mark with
    | some _ => return none
    | none =>
        if ← lineBreak then return some ['\n']
        let c ← Reader.next
        if c = '\\' ∧ mark = '"' then
          let line := ((← Reader.rest).dropWhile isBlank).head?
          if line = some '\n' ∨ line = some '\r' then
            Reader.skipWhile fun c => isBlank c || c = '\n' || c = '\r'
            return some []
          else return some [← escape]
        else if isControl c then Reader.fail
        else return some [c]
  return String.ofList parts.flatten

/-- Reads a string, the first character of which is the given quotation mark. -/
def string (mark : Char) : Reader String := do
  if ← Reader.accept (String.ofList [mark, mark, mark]) then quotedLines mark
  else
    Reader.expect mark.toString
    quotedLine mark

/-- Whether a character can stand in a key without quotation marks. -/
def isKeyChar (c : Char) : Bool := c.isAlphanum || c = '_' || c = '-'

/-- Reads one part of a key. -/
def keyPart : Reader String := do
  match ← Reader.peek with
  | some '"' =>
      Reader.expect "\""
      quotedLine '"'
  | some '\'' =>
      Reader.expect "'"
      quotedLine '\''
  | _ =>
      let cs ← Reader.takeWhile isKeyChar
      if cs.isEmpty then Reader.fail else return String.ofList cs

/-- Reads a key: parts with points between them. -/
def key : Reader (List String) := do
  let first ← keyPart
  let n := (← Reader.rest).length
  let more ← Reader.many (n + 1) do
    let before ← Reader.rest
    blanks
    if ← Reader.accept "." then
      blanks
      return some (← keyPart)
    else
      set before
      return none
  return first :: more

/-! ## Numbers and times -/

/-- Drops the underscores of a number; each has to stand between two digits. -/
def withoutUnderscores? (digit : Char → Bool) : List Char → Option (List Char)
  | [] => some []
  | [c] => if c = '_' then none else some [c]
  | a :: '_' :: b :: rest =>
      if digit a ∧ digit b then (withoutUnderscores? digit (b :: rest)).map (a :: ·) else none
  | a :: rest => if a = '_' then none else (withoutUnderscores? digit rest).map (a :: ·)

/-- Reads a whole number in a base. -/
def natural? (base : Nat) (digit : Char → Bool) (cs : List Char) : Option Node := do
  let digits ← withoutUnderscores? digit cs
  if digits.isEmpty ∨ ¬ digits.all digit then none
  let n : Int := inBase base digits
  if isWhole n then some (.int n) else none

/-- Whether digits have no zero in front. -/
def isPlain (digits : List Char) : Bool := digits.length ≤ 1 || digits.head? ≠ some '0'

/-- Reads a decimal number. -/
def decimal? (cs : List Char) : Option Node := do
  let (negative, unsigned) := Decimal.splitSign cs
  let word := String.ofList unsigned
  if word = "inf" ∨ word = "nan" then (Decimal.read? cs).map Node.float
  else
    let digits ← withoutUnderscores? isDigit unsigned
    let whole := digits.takeWhile isDigit
    if whole.isEmpty ∨ ¬ isPlain whole then none
    match digits.dropWhile isDigit with
    | [] =>
        let n : Int := if negative then -(ofDigits whole : Int) else ofDigits whole
        if isWhole n then some (.int n) else none
    | after =>
        let (fraction, exponent) := Decimal.splitFraction after
        if after.head? = some '.' ∧ fraction.isEmpty then none
        let e ← Decimal.exponent? exponent
        let x := Decimal.toFloat (ofDigits (whole ++ fraction)) (e - fraction.length)
        if x.isInf ∧ ¬ negative then none
        else some (.float (if negative then -x else x))

/-- Reads a number. -/
def number? : List Char → Option Node
  | '0' :: 'x' :: cs => natural? 16 isHexDigit cs
  | '0' :: 'o' :: cs => natural? 8 (fun c => '0' ≤ c && c ≤ '7') cs
  | '0' :: 'b' :: cs => natural? 2 (fun c => c = '0' || c = '1') cs
  | cs => decimal? cs

/-- Reads two digits that denote a number in a range. -/
def twoDigits (least greatest : Nat) : Reader (List Char) := do
  let digits ← Reader.takeExactly 2 isDigit
  if least ≤ ofDigits digits ∧ ofDigits digits ≤ greatest then return digits else Reader.fail

/-- Reads a date; its text is what it means. -/
def date : Reader (List Char) := do
  let year ← Reader.takeExactly 4 isDigit
  Reader.expect "-"
  let month ← twoDigits 1 12
  Reader.expect "-"
  let day ← twoDigits 1 31
  if Date.Valid ⟨ofDigits year, ofDigits month, ofDigits day⟩ then
    return year ++ '-' :: month ++ '-' :: day
  else Reader.fail

/-- Reads a time of day; trailing zeros of its fraction, and digits beyond the ninth, mean
nothing. -/
def timeOfDay : Reader (List Char) := do
  let hour ← twoDigits 0 23
  Reader.expect ":"
  let minute ← twoDigits 0 59
  Reader.expect ":"
  let second ← twoDigits 0 60
  let whole := hour ++ ':' :: minute ++ ':' :: second
  if ← Reader.accept "." then
    let digits ← Reader.takeWhile isDigit
    if digits.isEmpty then Reader.fail
    else
      let fraction := ((digits.take 9).reverse.dropWhile (· = '0')).reverse
      return if fraction.isEmpty then whole else whole ++ '.' :: fraction
  else return whole

/-- Reads the offset of a time, if there is one. -/
def offset : Reader (List Char) := do
  if (← Reader.accept "Z") || (← Reader.accept "z") then return ['Z']
  match ← Reader.peek with
  | some c =>
      if c = '+' ∨ c = '-' then
        let _ ← Reader.next
        let hour ← twoDigits 0 23
        Reader.expect ":"
        let minute ← twoDigits 0 59
        return c :: hour ++ ':' :: minute
      else return []
  | none => return []

/-- Reads a date, a time of day, or both. -/
def moment : Reader (List Char) := do
  if ((← Reader.rest).drop 2).head? = some ':' then timeOfDay
  else
    let day ← date
    if ← Reader.atEnd then return day
    else
      let between ← Reader.next
      if between = 'T' ∨ between = 't' ∨ between = ' ' then
        let time ← timeOfDay
        return day ++ 'T' :: time ++ (← offset)
      else Reader.fail

/-- Whether a character can stand in a number or a time. -/
def isNumberChar (c : Char) : Bool :=
  c.isAlphanum || c = '_' || c = '+' || c = '-' || c = '.' || c = ':'

/-- Takes the text of a number or a time. A blank may stand between a date and a time of day. -/
def numberText : Reader (List Char) := do
  let cs ← Reader.takeWhile isNumberChar
  let after ← Reader.rest
  match after with
  | ' ' :: c :: _ =>
      if cs.length = 10 ∧ (date.whole? cs).isSome ∧ isDigit c then
        let _ ← Reader.next
        let time ← Reader.takeWhile isNumberChar
        return cs ++ ' ' :: time
      else return cs
  | _ => return cs

/-! ## Values -/

/-- Puts a value under a path of names, unless one of them has a value already. -/
def nest? (path : List String) (value : Node) (ms : Members) : Option Members :=
  match path with
  | [] => none
  | [name] => if (ms.lookup name).isSome then none else some (ms.set name value)
  | name :: rest =>
      match ms.lookup name with
      | none => (nest? rest value []).map fun t => ms.set name (.table t)
      | some (.table t) => (nest? rest value t).map fun t => ms.set name (.table t)
      | some _ => none

/-- The table that assignments make, if no two of them are about the same value. -/
def tableOf? (assignments : List (List String × Node)) : Option Members :=
  assignments.foldlM (fun ms a => nest? a.1 a.2 ms) []

/-- Reads a value, nested at most so deep. -/
def value : Nat → Reader Node
  | 0 => Reader.fail
  | fuel + 1 => do
      match ← Reader.peek with
      | some '"' => return .text (← string '"')
      | some '\'' => return .text (← string '\'')
      | some '[' =>
          Reader.expect "["
          return .list (← Reader.listed (fuel + 1) spaces "," "]" (value fuel))
      | some '\x7b' =>
          Reader.expect "\x7b"
          blanks
          if ← Reader.accept "\x7d" then return .table []
          let assignments ← Reader.many (fuel + 1) do
            if ← Reader.accept "\x7d" then return none
            blanks
            let path ← key
            blanks
            Reader.expect "="
            blanks
            let v ← value fuel
            blanks
            if ← Reader.accept "," then
              blanks
              if ← Reader.startsWith "\x7d" then Reader.fail
            else if !(← Reader.startsWith "\x7d") then Reader.fail
            return some (path, v)
          match tableOf? assignments with
          | some ms => return .table ms
          | none => Reader.fail
      | _ =>
          let cs ← numberText
          match String.ofList cs with
          | "true" => return .flag true
          | "false" => return .flag false
          | _ =>
              match moment.whole? cs with
              | some text => return .text (String.ofList text)
              | none =>
                  match number? cs with
                  | some n => return n
                  | none => Reader.fail

/-! ## Lines -/

/-- What a line of a file says. -/
inductive Line where
  | assign (path : List String) (value : Node)
  /-- The lines to come are about a table. -/
  | enter (path : List String)
  /-- The lines to come are about a new table at the end of a list. -/
  | append (path : List String)

/-- Reads a line that says something, after the lines that say nothing; nothing at the end. -/
def line? (fuel : Nat) : Reader (Option Line) := do
  spaces
  if ← Reader.atEnd then return none
  else if ← Reader.accept "[[" then
    blanks
    let path ← key
    blanks
    Reader.expect "]]"
    lineEnd
    return some (.append path)
  else if ← Reader.accept "[" then
    blanks
    let path ← key
    blanks
    Reader.expect "]"
    lineEnd
    return some (.enter path)
  else
    let path ← key
    blanks
    Reader.expect "="
    blanks
    let v ← value fuel
    lineEnd
    return some (.assign path v)

/-- Changes the value under a path of names, making the tables on the way. The way through a list
leads through its last item. -/
def change? (f : Option Node → Option Node) : List String → Members → Option Members
  | [], _ => none
  | [name], ms => (f (ms.lookup name)).map fun v => ms.set name v
  | name :: rest, ms =>
      match ms.lookup name with
      | none => (change? f rest []).map fun t => ms.set name (.table t)
      | some (.table t) => (change? f rest t).map fun t => ms.set name (.table t)
      | some (.list items) =>
          match items.getLast? with
          | some (.table t) =>
              (change? f rest t).map fun t => ms.set name (.list (items.dropLast ++ [.table t]))
          | _ => none
      | some _ => none

/-- A file that has been carried out up to some line. -/
structure Draft where
  members : Members := []
  /-- The table that the lines to come are about. -/
  here : List String := []
  /-- The tables that were opened by a line of their own. -/
  opened : List (List String) := []
  /-- The tables that were made on the way to a value. -/
  implied : List (List String) := []
  /-- The paths of values that were given as a whole. -/
  given : List (List String) := []

namespace Draft

/-- Whether a path leads through a value that was given as a whole. -/
def isGiven (d : Draft) (path : List String) : Bool := d.given.any fun g => g.isPrefixOf path

/-- The paths of the tables on the way from the table at hand to a value. -/
def onTheWay (d : Draft) (path : List String) : List (List String) :=
  (List.range (path.length - 1)).map fun n => d.here ++ path.take (n + 1)

/-- Forgets what is known about the items of a list before a new one is put at its end. -/
def renew (d : Draft) (path : List String) : Draft :=
  let keep := fun (p : List String) => !(path.isPrefixOf p && p ≠ path)
  { d with
    opened := d.opened.filter keep
    implied := d.implied.filter keep
    given := d.given.filter keep }

/-- Carries a line out. -/
def carry? (d : Draft) : Line → Option Draft
  | .assign path value => do
      let full := d.here ++ path
      let way := d.onTheWay path
      if d.isGiven full ∨ way.any d.opened.contains then none
      let members ← change? (fun v => if v.isSome then none else some value) full d.members
      return { d with members, implied := d.implied ++ way, given := d.given ++ [full] }
  | .enter path => do
      if d.isGiven path ∨ d.opened.contains path ∨ d.implied.contains path then none
      let members ← change? (fun v =>
        match v with
        | none => some (.table [])
        | some (.table t) => some (.table t)
        | some _ => none) path d.members
      return { d with members, here := path, opened := d.opened ++ [path] }
  | .append path => do
      if d.isGiven path ∨ d.opened.contains path ∨ d.implied.contains path then none
      let members ← change? (fun v =>
        match v with
        | none => some (.list [.table []])
        | some (.list items) => some (.list (items ++ [.table []]))
        | some _ => none) path d.members
      return { d.renew path with members, here := path }

end Draft

/-- **Reads a TOML file.** A byte order mark at its beginning does not count. -/
def read? (text : String) : Option Members := do
  let cs := match text.toList with
    | '\ufeff' :: rest => rest
    | cs => cs
  let n := cs.length + 1
  let lines ← (Reader.many n (line? n)).whole? cs
  let d ← lines.foldlM Draft.carry? {}
  return d.members

end DoubleEntry.Settings.Toml
