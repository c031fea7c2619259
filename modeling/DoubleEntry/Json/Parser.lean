import DoubleEntry.Json.Number
set_option autoImplicit false

/-! # Reading JSON

`Json.parse?` reads one value and nothing else but white space around it. Values may be nested at
most 127 deep.
-/

namespace DoubleEntry.Json

open DoubleEntry.Text

/-- White space between the parts of a text. -/
def isSpace (c : Char) : Bool := c = ' ' || c = '\n' || c = '\t' || c = '\r'

/-- The text without the white space in front of it. -/
def skipSpace (cs : List Char) : List Char := cs.dropWhile isSpace

/-- The value of a hexadecimal digit. -/
def hexValue? (c : Char) : Option Nat :=
  if '0' ≤ c ∧ c ≤ '9' then some (c.toNat - 48)
  else if 'a' ≤ c ∧ c ≤ 'f' then some (c.toNat - 87)
  else if 'A' ≤ c ∧ c ≤ 'F' then some (c.toNat - 55)
  else none

/-- Reads four hexadecimal digits. -/
def readUnit? : List Char → Option (Nat × List Char)
  | a :: b :: c :: d :: rest => do
      let a ← hexValue? a
      let b ← hexValue? b
      let c ← hexValue? c
      let d ← hexValue? d
      return (((a * 16 + b) * 16 + c) * 16 + d, rest)
  | _ => none

/-- Reads the code units after the first `\u`: one, or two that form a pair. -/
def readCodePoint? (cs : List Char) : Option (Char × List Char) := do
  let (u, rest) ← readUnit? cs
  if 0xd800 ≤ u ∧ u ≤ 0xdbff then
    match rest with
    | '\\' :: 'u' :: rest =>
        let (v, rest) ← readUnit? rest
        if 0xdc00 ≤ v ∧ v ≤ 0xdfff then
          return (Char.ofNat (0x10000 + (u - 0xd800) * 0x400 + (v - 0xdc00)), rest)
        else none
    | _ => none
  else if 0xdc00 ≤ u ∧ u ≤ 0xdfff then none
  else return (Char.ofNat u, rest)

/-- Reads what follows a backslash in a string. -/
def readEscape? : List Char → Option (Char × List Char)
  | '"' :: rest => some ('"', rest)
  | '\\' :: rest => some ('\\', rest)
  | '/' :: rest => some ('/', rest)
  | 'b' :: rest => some ('\x08', rest)
  | 'f' :: rest => some ('\x0c', rest)
  | 'n' :: rest => some ('\n', rest)
  | 'r' :: rest => some ('\r', rest)
  | 't' :: rest => some ('\t', rest)
  | 'u' :: rest => readCodePoint? rest
  | _ => none

/-- Reads a string up to its closing quotation mark; `acc` holds the characters before, the last one
first. At most `fuel` characters are read. -/
def readString? : Nat → List Char → List Char → Option (String × List Char)
  | 0, _, _ => none
  | _ + 1, _, [] => none
  | fuel + 1, acc, c :: rest =>
      if c = '"' then some (String.ofList acc.reverse, rest)
      else if c = '\\' then
        match readEscape? rest with
        | some (d, rest) => readString? fuel (d :: acc) rest
        | none => none
      else if c.toNat < 32 then none
      else readString? fuel (c :: acc) rest

/-- Reads an exponent, if there is one. -/
def readExponent? (cs : List Char) : Option (Option Int × List Char) :=
  match cs with
  | c :: rest =>
      if c = 'e' ∨ c = 'E' then
        let (negative, rest) := match rest with
          | '+' :: rest => (false, rest)
          | '-' :: rest => (true, rest)
          | rest => (false, rest)
        let digits := rest.takeWhile isDigit
        if digits.isEmpty then none
        else
          let e : Int := ofDigits digits
          some (some (if negative then -e else e), rest.drop digits.length)
      else some (none, cs)
  | [] => some (none, cs)

/-- Reads a number. -/
def readNumber? (cs : List Char) : Option (Json × List Char) := do
  let (negative, cs) := match cs with
    | '-' :: rest => (true, rest)
    | _ => (false, cs)
  let whole := cs.takeWhile isDigit
  if whole.isEmpty ∨ (whole.head? = some '0' ∧ 1 < whole.length) then none
  let cs := cs.drop whole.length
  let (fraction, cs) ← match cs with
    | '.' :: rest =>
        let digits := rest.takeWhile isDigit
        if digits.isEmpty then none else some (some digits, rest.drop digits.length)
    | _ => some (none, cs)
  let (exponent, cs) ← readExponent? cs
  let n ← ofParts? negative whole fraction exponent
  return (n, cs)

/-- The rest of a text that starts with a word. -/
def word? : List Char → List Char → Option (List Char)
  | [], cs => some cs
  | w :: ws, c :: cs => if w = c then word? ws cs else none
  | _ :: _, [] => none

mutual

/-- Reads a value that stands after white space, with at most `depth` more levels of nesting. -/
def readValue? : Nat → Nat → List Char → Option (Json × List Char)
  | 0, _, _ => none
  | fuel + 1, depth, cs =>
      match skipSpace cs with
      | [] => none
      | '"' :: rest => do
          let (s, rest) ← readString? (rest.length + 1) [] rest
          return (.string s, rest)
      | '[' :: rest =>
          match depth with
          | 0 => none
          | depth + 1 =>
              match skipSpace rest with
              | ']' :: rest => some (.array [], rest)
              | rest => do
                  let (items, rest) ← readItems? fuel depth rest
                  return (.array items, rest)
      | '\x7b' :: rest =>
          match depth with
          | 0 => none
          | depth + 1 =>
              match skipSpace rest with
              | '\x7d' :: rest => some (.object [], rest)
              | rest => do
                  let (members, rest) ← readMembers? fuel depth rest
                  return (.ofMembers members, rest)
      | c :: rest =>
          if c = 't' then (word? ['r', 'u', 'e'] rest).map (.bool true, ·)
          else if c = 'f' then (word? ['a', 'l', 's', 'e'] rest).map (.bool false, ·)
          else if c = 'n' then (word? ['u', 'l', 'l'] rest).map (.null, ·)
          else readNumber? (c :: rest)

/-- Reads the items of an array, and the bracket after them. -/
def readItems? : Nat → Nat → List Char → Option (List Json × List Char)
  | 0, _, _ => none
  | fuel + 1, depth, cs => do
      let (v, rest) ← readValue? fuel depth cs
      match skipSpace rest with
      | ',' :: rest =>
          let (vs, rest) ← readItems? fuel depth rest
          return (v :: vs, rest)
      | ']' :: rest => return ([v], rest)
      | _ => none

/-- Reads the members of an object, and the brace after them. -/
def readMembers? : Nat → Nat → List Char → Option (List (String × Json) × List Char)
  | 0, _, _ => none
  | fuel + 1, depth, cs => do
      match skipSpace cs with
      | '"' :: rest =>
          let (name, rest) ← readString? (rest.length + 1) [] rest
          match skipSpace rest with
          | ':' :: rest =>
              let (v, rest) ← readValue? fuel depth rest
              match skipSpace rest with
              | ',' :: rest =>
                  let (ms, rest) ← readMembers? fuel depth rest
                  return ((name, v) :: ms, rest)
              | '\x7d' :: rest => return ([(name, v)], rest)
              | _ => none
          | _ => none
      | _ => none

end

/-- **Reads a JSON text.** -/
def parse? (s : String) : Option Json :=
  match readValue? (2 * s.length + 2) 127 s.toList with
  | some (v, rest) => if (skipSpace rest).isEmpty then some v else none
  | none => none

end DoubleEntry.Json
