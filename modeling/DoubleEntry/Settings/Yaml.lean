import DoubleEntry.Decimal.Read
import DoubleEntry.Settings.Node
import DoubleEntry.Text.Numeral
import DoubleEntry.Text.Reader
set_option autoImplicit false

/-! # YAML files

A file is a mapping in block style. Its values are scalars, mappings and sequences, in block style,
where the indentation of the lines tells what belongs together, or in flow style between brackets. A
scalar without quotation marks may be a number, a truth value or nothing; all others are texts.

A file is read as a list of indented lines, from which comments and blank lines are removed.
-/

namespace DoubleEntry.Settings.Yaml

open DoubleEntry.Text

/-- A blank within a line. -/
def isLineBlank (c : Char) : Bool := c = ' ' || c = '\t'

/-! ## Scalars -/

/-- A whole number in decimal notation. -/
def decimal? (cs : List Char) : Option Int :=
  let (negative, digits) := Decimal.splitSign cs
  if digits.isEmpty ∨ ¬ digits.all isDigit then none
  else
    let n : Int := if negative then -(ofDigits digits : Int) else ofDigits digits
    if isWhole n then some n else none

/-- The value of a digit in any base up to sixteen. -/
def digitOf? (base : Nat) (c : Char) : Option Nat :=
  let n :=
    if isDigit c then digitValue c
    else if c.isAlpha then c.toLower.toNat - 87
    else base
  if n < base then some n else none

/-- A whole number in another base. -/
def inBase? (base : Nat) (cs : List Char) : Option Int :=
  let (negative, digits) := Decimal.splitSign cs
  if digits.isEmpty then none
  else do
    let n ← digits.foldlM (fun n c => (digitOf? base c).map (n * base + ·)) 0
    let i : Int := if negative then -(n : Int) else n
    if isWhole i then some i else none

/-- The whole number that a scalar denotes. -/
def whole? (cs : List Char) : Option Int :=
  match cs with
  | '0' :: 'x' :: digits => (inBase? 16 digits).or (decimal? cs)
  | '0' :: 'o' :: digits => (inBase? 8 digits).or (decimal? cs)
  | '+' :: '+' :: _ | '+' :: '-' :: _ => none
  | cs => decimal? cs

/-- The spellings of numbers that no configuration can have. -/
def unusable : List String :=
  [".inf", ".Inf", ".INF", "+.inf", "+.Inf", "+.INF", "-.inf", "-.Inf", "-.INF", ".nan", ".NAN"]

/-- The value of a scalar without quotation marks. -/
def plain? (cs : List Char) : Option Node :=
  let s := String.ofList cs
  if s = "" ∨ s = "~" ∨ s = "null" then some .nothing
  else if s = "true" then some (.flag true)
  else if s = "false" then some (.flag false)
  else match whole? cs with
    | some n => some (.int n)
    | none =>
        if unusable.contains s then none
        else match Decimal.read? cs with
          | some x => some (.float x)
          | none => some (.text s)

/-! ## Scalars between quotation marks, and flow style -/

/-- The value of a hexadecimal digit. -/
def ofHexDigits (cs : List Char) : Nat :=
  cs.foldl (fun n c => n * 16 + (digitOf? 16 c).getD 0) 0

/-- Reads a character that is given by its code point. -/
def codePoint (digits : Nat) : Reader Char := do
  let n := ofHexDigits (← Reader.takeExactly digits fun c => (digitOf? 16 c).isSome)
  if n < 0xd800 ∨ (0xdfff < n ∧ n < 0x110000) then return Char.ofNat n else Reader.fail

/-- Reads what follows a backslash. -/
def escape : Reader Char := do
  match ← Reader.next with
  | '0' => return '\x00'
  | 'a' => return '\x07'
  | 'b' => return '\x08'
  | 't' | '\t' => return '\t'
  | 'n' => return '\n'
  | 'v' => return '\x0b'
  | 'f' => return '\x0c'
  | 'r' => return '\r'
  | 'e' => return '\x1b'
  | ' ' => return ' '
  | '"' => return '"'
  | '/' => return '/'
  | '\\' => return '\\'
  | 'N' => return '\u0085'
  | '_' => return '\u00a0'
  | 'L' => return '\u2028'
  | 'P' => return '\u2029'
  | 'x' => codePoint 2
  | 'u' => codePoint 4
  | 'U' => codePoint 8
  | _ => Reader.fail

/-- Reads a text up to its closing quotation mark, in which a backslash gives characters. -/
def doubleQuoted : Reader String := do
  let n := (← Reader.rest).length
  let cs ← Reader.many (n + 1) do
    let c ← Reader.next
    if c = '"' then return none
    else if c = '\\' then return some (← escape)
    else return some c
  return String.ofList cs

/-- Reads a text up to its closing quotation mark, which is written twice in the text. -/
def singleQuoted : Reader String := do
  let n := (← Reader.rest).length
  let cs ← Reader.many (n + 1) do
    if ← Reader.accept "''" then return some '\''
    let c ← Reader.next
    if c = '\'' then return none else return some c
  return String.ofList cs

/-- Skips blanks. -/
def blanks : Reader Unit := Reader.skipWhile isLineBlank

/-- Takes a scalar without quotation marks in flow style: up to a bracket, a comma, or a colon with
something other than text after it. -/
def flowPlain : Reader (List Char) := do
  let n := (← Reader.rest).length
  let cs ← Reader.many (n + 1) do
    match ← Reader.rest with
    | [] => return none
    | c :: rest =>
        if "[]\x7b\x7d,".toList.contains c then return none
        else if c = ':' ∧ (rest.head?.map fun d => " \t[]\x7b\x7d,".toList.contains d).getD true then
          return none
        else some <$> Reader.next
  return (cs.reverse.dropWhile isLineBlank).reverse

/-- The name that a scalar stands for as the key of a member. -/
def nameOf? : Node → Option String
  | .text s => some s
  | .int n => some (toString n)
  | _ => none

/-- Reads a value in flow style, nested at most so deep. -/
def flow : Nat → Reader Node
  | 0 => Reader.fail
  | fuel + 1 => do
      match ← Reader.peek with
      | some '"' =>
          Reader.expect "\""
          return .text (← doubleQuoted)
      | some '\'' =>
          Reader.expect "'"
          return .text (← singleQuoted)
      | some '[' =>
          Reader.expect "["
          return .list (← Reader.listed (fuel + 1) blanks "," "]" (flow fuel))
      | some '\x7b' =>
          Reader.expect "\x7b"
          let members ← Reader.listed (fuel + 1) blanks "," "\x7d" do
            match nameOf? (← flow fuel) with
            | none => Reader.fail
            | some name =>
                blanks
                if ← Reader.accept ":" then
                  blanks
                  return (name, ← flow fuel)
                else return (name, .nothing)
          return .table (Members.ofList members)
      | _ =>
          match plain? (← flowPlain) with
          | some v => return v
          | none => Reader.fail

/-! ## Lines -/

/-- A line of a file: how far it is indented, and its text without the blanks around it. -/
structure Line where
  indent : Nat
  text : List Char
  deriving Inhabited

/-- Drops the comment at the end of a line: a number sign at its beginning or after a blank, outside
of quotation marks. -/
def dropComment (mark : Option Char) (blank : Bool) : List Char → List Char
  | [] => []
  | c :: cs =>
      match mark with
      | some m => c :: dropComment (if c = m then none else mark) false cs
      | none =>
          if c = '#' ∧ blank then []
          else if (c = '"' ∨ c = '\'') ∧ blank then c :: dropComment (some c) false cs
          else c :: dropComment none (isLineBlank c || "[\x7b,:".toList.contains c) cs

/-- The line with a given text. -/
def Line.ofText (cs : List Char) : Line :=
  let shown := (dropComment none true cs).filter (· ≠ '\r')
  let text := shown.dropWhile (· = ' ')
  ⟨shown.length - text.length, (text.reverse.dropWhile isLineBlank).reverse⟩

/-- Splits a text into lines. -/
def splitLines : List Char → List (List Char)
  | [] => [[]]
  | c :: cs =>
      match splitLines cs with
      | [] => [[c]]
      | first :: rest => if c = '\n' then [] :: first :: rest else (c :: first) :: rest

/-- Splits a line at the colon that makes it a member of a mapping. -/
def splitKey : List Char → Option (List Char × List Char)
  | [] => none
  | [':'] => some ([], [])
  | ':' :: c :: cs =>
      if isLineBlank c then some ([], cs.dropWhile isLineBlank)
      else (splitKey (c :: cs)).map fun p => (':' :: p.1, p.2)
  | c :: cs => (splitKey cs).map fun p => (c :: p.1, p.2)

/-- Splits a member of a mapping into its name and the text of its value. -/
def member? (cs : List Char) : Option (String × List Char) :=
  match cs with
  | '"' :: rest => quotedMember (doubleQuoted rest)
  | '\'' :: rest => quotedMember (singleQuoted rest)
  | '[' :: _ | '\x7b' :: _ => none
  | cs => do
      let (name, value) ← splitKey cs
      let name ← plain? (name.reverse.dropWhile isLineBlank).reverse
      return (← nameOf? name, value)
where
  /-- The member whose name was read between quotation marks. -/
  quotedMember : Option (String × List Char) → Option (String × List Char)
    | some (name, rest) =>
        match rest.dropWhile isLineBlank with
        | [':'] => some (name, [])
        | ':' :: c :: rest => if isLineBlank c then some (name, rest.dropWhile isLineBlank) else none
        | _ => none
    | none => none

/-- The text of the lines that go on with a value: those that are indented further. -/
def continuation (indent : Nat) (lines : List Line) : List Char × List Line :=
  let more := lines.takeWhile fun l => indent < l.indent
  (more.flatMap fun l => ' ' :: l.text, lines.drop more.length)

/-- The text that lines in block style make after the given mark: with a line break after each line,
or with blanks between the lines, and with a line break at the end unless the mark says
otherwise. -/
def blockText (mark : List Char) (lines : List Line) : String :=
  let margin := (lines.head?.map Line.indent).getD 0
  let shown := lines.map fun l => String.ofList (List.replicate (l.indent - margin) ' ' ++ l.text)
  let close := if lines.isEmpty ∨ mark.contains '-' then "" else "\n"
  (if mark.head? = some '|' then "\n" else " ").intercalate shown ++ close

/-- Whether a text in a line is the mark of a text in block style. -/
def isBlockMark (cs : List Char) : Bool := cs.head? = some '|' || cs.head? = some '>'

/-- The value of a text within a line, and of the lines that go on with it. -/
def inline? (cs : List Char) : Option Node :=
  match cs with
  | [] => some .nothing
  | c :: _ =>
      if "\"'[\x7b".toList.contains c then (flow (cs.length + 1)).whole? cs
      else if "&*!%@`]\x7d,|>".toList.contains c ∨ (member? cs).isSome then none
      else plain? cs

/-- Whether a line is an item of a sequence. -/
def Line.isItem (l : Line) : Bool :=
  match l.text with
  | ['-'] => true
  | '-' :: c :: _ => isLineBlank c
  | _ => false

mutual

/-- Reads the value that begins with the next line, and the lines left after it. -/
def block : Nat → List Line → Option (Node × List Line)
  | 0, _ => none
  | _, [] => some (.nothing, [])
  | fuel + 1, l :: lines =>
      if l.isItem then do
        let (items, rest) ← items fuel l.indent (l :: lines)
        return (.list items, rest)
      else if (member? l.text).isSome then do
        let (members, rest) ← members fuel l.indent (l :: lines)
        return (.table (Members.ofList members), rest)
      else do
        let more := lines.takeWhile fun m => l.indent ≤ m.indent
        let text := l.text ++ more.flatMap fun m => ' ' :: m.text
        return (← inline? text, lines.drop more.length)

/-- Reads the items of a sequence with a given indentation. The item is a value of its own that
begins where its text begins. -/
def items : Nat → Nat → List Line → Option (List Node × List Line)
  | 0, _, _ => none
  | _, _, [] => some ([], [])
  | fuel + 1, indent, l :: lines =>
      if l.indent = indent ∧ l.isItem then do
        let text := (l.text.drop 1).dropWhile isLineBlank
        let inner : List Line :=
          if text.isEmpty then [] else [⟨l.indent + (l.text.length - text.length), text⟩]
        let own := lines.takeWhile fun m => indent < m.indent
        let (v, left) ← block fuel (inner ++ own)
        if !left.isEmpty then none
        let (more, rest) ← items fuel indent (lines.drop own.length)
        return (v :: more, rest)
      else some ([], l :: lines)

/-- Reads the members of a mapping with a given indentation. -/
def members : Nat → Nat → List Line → Option (List (String × Node) × List Line)
  | 0, _, _ => none
  | _, _, [] => some ([], [])
  | fuel + 1, indent, l :: lines =>
      if l.indent = indent ∧ ¬ l.isItem then do
        let (name, text) ← member? l.text
        let (v, rest) ←
          if text.isEmpty then
            let own := lines.takeWhile fun m => indent < m.indent || (m.indent = indent && m.isItem)
            match block fuel own with
            | some (v, []) => some (v, lines.drop own.length)
            | _ => none
          else if isBlockMark text then
            let own := lines.takeWhile fun m => indent < m.indent
            some (.text (blockText text own), lines.drop own.length)
          else
            let (more, rest) := continuation indent lines
            (inline? (text ++ more)).map fun v => (v, rest)
        let (ms, rest) ← members fuel indent rest
        return ((name, v) :: ms, rest)
      else some ([], l :: lines)

end

/-- Whether a line begins a document, or is about the file itself. -/
def isMarker (cs : List Char) : Bool := cs = ['-', '-', '-'] || cs.head? = some '%'

/-- **Reads a YAML file.** A file without a value is a mapping without members. -/
def read? (text : String) : Option Members := do
  let lines := ((splitLines text.toList).map Line.ofText).filter fun l => !l.text.isEmpty
  if lines.any fun l => l.text.head? = some '\t' then none
  let body := lines.dropWhile fun l => isMarker l.text
  let body := body.takeWhile fun l => l.text ≠ ['.', '.', '.']
  if body.any fun l => isMarker l.text then none
  if body.isEmpty ∧ lines.isEmpty then return []
  let (v, left) ← block (4 * text.length + 4) body
  if !left.isEmpty then none
  v.members?

end DoubleEntry.Settings.Yaml
