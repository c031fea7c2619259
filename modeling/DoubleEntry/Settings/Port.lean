import DoubleEntry.Settings.Merge
import DoubleEntry.Text.Numeral
import DoubleEntry.Text.Quoted
set_option autoImplicit false

/-! # The port of the server

The port is a number below 65536. It may be given in other forms: as a truth value or one of the
words for it, as a numeral, or as a floating point number, which is rounded.
-/

namespace DoubleEntry.Settings

/-- Why a setting is no port. -/
inductive PortFault where
  /-- The value is not a number in any form. -/
  | notANumber (found : Node) (source? : Option String)
  | negative (n : Int) (source? : Option String)
  /-- The number is too large for a port. -/
  | tooLarge (n : Nat)
  deriving Repr

namespace PortFault

/-- What a message calls a value. -/
def describe : Node → String
  | .nothing => "unit value"
  | .flag b => "boolean `" ++ toString b ++ "`"
  | .int n => "64-bit integer `" ++ toString n ++ "`"
  | .float _ => "floating point"
  | .text s => "string " ++ Text.quoted s
  | .list _ => "sequence"
  | .table _ => "map"

/-- How a message names the source of a value. -/
def origin : Option String → String
  | some source => " in " ++ source
  | none => ""

/-- What is told about a value of the wrong kind. -/
def mismatch (found expected : String) : String :=
  "invalid type: " ++ found ++ ", expected " ++ expected ++ " for key `port`"

/-- What is told about a setting that is no port. -/
def message : PortFault → String
  | .notANumber found source? => mismatch (describe found) "an integer" ++ origin source?
  | .negative n source? =>
      mismatch (describe (.int n)) "an unsigned 64 bit or less integer" ++ origin source?
  | .tooLarge n =>
      mismatch ("64-bit unsigned integer `" ++ toString n ++ "`") "an unsigned 16 bit integer"

end PortFault

/-- The words for truth values. -/
def truthWords : List (String × Bool) :=
  [("true", true), ("on", true), ("yes", true), ("false", false), ("off", false), ("no", false)]

/-- The natural number that a setting stands for, as far as 64 bits reach. -/
def Setting.natural (s : Setting) : Except PortFault Nat :=
  match s.value with
  | .int n => if 0 ≤ n then .ok n.toNat else .error (.negative n s.source?)
  | .float x => .ok x.round.toUInt64.toNat
  | .flag b => .ok b.toNat
  | .text t =>
      match truthWords.lookup t.toLower with
      | some b => .ok b.toNat
      | none =>
          match Text.numeral Text.limit64 t.toList with
          | .ok n => .ok n
          | .error _ => .error (.notANumber s.value s.source?)
  | .nothing | .list _ | .table _ => .error (.notANumber s.value s.source?)

/-- The port that a setting stands for. -/
def Setting.port (s : Setting) : Except PortFault Nat := do
  let n ← s.natural
  if n < Text.limit16 then return n else throw (.tooLarge n)

end DoubleEntry.Settings
