set_option autoImplicit false

/-! # Values in configuration files

What the files of all formats consist of: a file is a table of named values.
-/

namespace DoubleEntry.Settings

/-- A value in a configuration. -/
inductive Node where
  | nothing
  | flag (b : Bool)
  | int (n : Int)
  | float (x : Float)
  | text (s : String)
  | list (items : List Node)
  | table (members : List (String × Node))
  deriving Inhabited, BEq, Repr

/-- Named values; every name stands for one value. -/
abbrev Members := List (String × Node)

namespace Members

/-- Gives a name a value, instead of the one that it had. -/
def set (ms : Members) (name : String) (value : Node) : Members :=
  if (ms.lookup name).isSome then ms.map fun m => if m.1 = name then (name, value) else m
  else ms ++ [(name, value)]

/-- The named values of a list in which names can occur again; the last value of a name counts. -/
def ofList (ms : List (String × Node)) : Members := ms.foldl (fun acc m => acc.set m.1 m.2) []

end Members

/-- The members of a table. -/
def Node.members? : Node → Option Members
  | .table ms => some ms
  | _ => none

/-- The least and the greatest whole number of a configuration. -/
def isWhole (n : Int) : Bool := -9223372036854775808 ≤ n && n ≤ 9223372036854775807

end DoubleEntry.Settings
