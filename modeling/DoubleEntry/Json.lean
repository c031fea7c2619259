import DoubleEntry.Text.Digits
set_option autoImplicit false

/-! # JSON values

Whole numbers are kept exactly as long as they fit in 64 bits, with or without a sign; all other
numbers are floating point numbers. The members of an object stand in the order of their names, and
no name occurs twice: `Json.insertMember` keeps both.
-/

namespace DoubleEntry

/-- A JSON value. -/
inductive Json where
  | null
  | bool (b : Bool)
  | int (n : Int)
  | float (x : Float)
  | string (s : String)
  | array (items : List Json)
  | object (members : List (String × Json))
  deriving Inhabited, BEq, Repr

namespace Json

/-- Puts a member in its place, instead of one of the same name. -/
def insertMember {α : Type} (name : String) (value : α) :
    List (String × α) → List (String × α)
  | [] => [(name, value)]
  | (n, v) :: rest =>
      if name < n then (name, value) :: (n, v) :: rest
      else if name = n then (name, value) :: rest
      else (n, v) :: insertMember name value rest

/-- The object with the given members; of members of one name the last counts. -/
def ofMembers (members : List (String × Json)) : Json :=
  .object (members.foldl (fun acc m => insertMember m.1 m.2 acc) [])

/-- The member of an object with a given name. -/
def member? : Json → String → Option Json
  | .object members, name => members.lookup name
  | _, _ => none

/-! ## Writing -/

/-- One hexadecimal digit. -/
def hexDigit (n : Nat) : Char := if n < 10 then Char.ofNat (48 + n) else Char.ofNat (87 + n)

/-- How one character of a string is written. -/
def escape (c : Char) : List Char :=
  if c = '"' then ['\\', '"']
  else if c = '\\' then ['\\', '\\']
  else if c = '\n' then ['\\', 'n']
  else if c = '\r' then ['\\', 'r']
  else if c = '\t' then ['\\', 't']
  else if c.toNat < 32 then ['\\', 'u', '0', '0', hexDigit (c.toNat / 16), hexDigit (c.toNat % 16)]
  else [c]

/-- The text of a string. -/
def renderString (s : String) : String := String.ofList ('"' :: s.toList.flatMap escape ++ ['"'])

mutual

/-- The text of a value, for a way to write floating point numbers. -/
def render (float : Float → String) : Json → String
  | .null => "null"
  | .bool true => "true"
  | .bool false => "false"
  | .int n => String.ofList (Text.intDigits n)
  | .float x => float x
  | .string s => renderString s
  | .array items => "[" ++ ",".intercalate (renderItems float items) ++ "]"
  | .object members => "\x7b" ++ ",".intercalate (renderMembers float members) ++ "\x7d"

/-- The texts of the items of an array. -/
def renderItems (float : Float → String) : List Json → List String
  | [] => []
  | v :: rest => render float v :: renderItems float rest

/-- The texts of the members of an object. -/
def renderMembers (float : Float → String) : List (String × Json) → List String
  | [] => []
  | (n, v) :: rest => (renderString n ++ ":" ++ render float v) :: renderMembers float rest

end

end Json

end DoubleEntry
