import DoubleEntry.Decimal.Shortest
import DoubleEntry.Json
import DoubleEntry.Text.Quoted
set_option autoImplicit false

/-! # Records as JSON values

A record is written as an object with one member for each field. It is read from such an object, or
from an array with its fields in the order in which they are declared. `Fields α` describes how the
fields of a record of type `α` are read, and `Fields.decode` reads the record:

* in an object, the first member that is not right decides the error, in the order of the names;
  only if all members are right, the first field that is missing does; members that are no fields do
  not count;
* in an array, the first item that is not right decides the error, then the number of items.
-/

namespace DoubleEntry.Json

/-- How floating point numbers are shown in messages. -/
def floatFormat : FloatFormat := ⟨-5, 15⟩

/-- Why a value is not what it should be. -/
inductive DecodeError where
  /-- The value is of another type than the expected one. -/
  | invalidType (found : Json) (expected : String)
  /-- The value is of the expected type, but not one of its values. -/
  | invalidValue (found : Json) (expected : String)
  | invalidLength (found : Nat) (expected : String)
  | missingField (name : String)
  | unknownVariant (found : String) (variants : List String)
  | custom (text : String)
  deriving Repr

/-- What a message calls a value. -/
def describe : Json → String
  | .null => "null"
  | .bool true => "boolean `true`"
  | .bool false => "boolean `false`"
  | .int n => "integer `" ++ toString n ++ "`"
  | .float x => "floating point `" ++ floatFormat.render x ++ "`"
  | .string s => "string " ++ Text.quoted s
  | .array _ => "sequence"
  | .object _ => "map"

/-- What is told about a value that is not what it should be. -/
def DecodeError.message : DecodeError → String
  | .invalidType found expected =>
      "invalid type: " ++ describe found ++ ", expected " ++ expected
  | .invalidValue found expected =>
      "invalid value: " ++ describe found ++ ", expected " ++ expected
  | .invalidLength found expected =>
      "invalid length " ++ toString found ++ ", expected " ++ expected
  | .missingField name => "missing field `" ++ name ++ "`"
  | .unknownVariant found variants =>
      "unknown variant `" ++ found ++ "`, expected one of " ++
        ", ".intercalate (variants.map fun v => "`" ++ v ++ "`")
  | .custom text => text

/-- A way to read values of a type. -/
abbrev Decoder (α : Type) := Json → Except DecodeError α

/-! ## Plain values -/

/-- A type of whole numbers: its name and its bounds. -/
structure WordType where
  name : String
  least : Int
  greatest : Int
  deriving DecidableEq, Repr

/-- Numbers of 64 bits with a sign. -/
def signed64 : WordType := ⟨"i64", -9223372036854775808, 9223372036854775807⟩

/-- Numbers of 16 bits without a sign. -/
def unsigned16 : WordType := ⟨"u16", 0, 65535⟩

/-- Reads a whole number. -/
def decodeInt (w : WordType) : Decoder Int
  | .int n => if w.least ≤ n ∧ n ≤ w.greatest then .ok n else .error (.invalidValue (.int n) w.name)
  | v => .error (.invalidType v w.name)

/-- Reads a text. -/
def decodeString : Decoder String
  | .string s => .ok s
  | v => .error (.invalidType v "a string")

/-! ## Records -/

/-- The fields of a record: their names in the order of declaration, each with a test of its value,
and how the record is put together. -/
structure Fields (α : Type) where
  declared : List (String × (Json → Except DecodeError Unit))
  /-- Puts the record together from the values of its fields; the second argument is the error for a
  field that is absent. -/
  build : (String → Option Json) → (String → DecodeError) → Except DecodeError α

namespace Fields

variable {α β : Type}

/-- A record without fields. -/
def nothing (a : α) : Fields α := ⟨[], fun _ _ => .ok a⟩

/-- The record with one more field, which every value has to have unless a default is given. -/
def field (f : Fields (α → β)) (name : String) (decode : Decoder α)
    (default : Option α := none) : Fields β where
  declared := f.declared ++ [(name, fun v => (decode v).map fun _ => ())]
  build := fun get absent => do
    let g ← f.build get absent
    let a ← match get name, default with
      | some v, _ => decode v
      | none, some a => .ok a
      | none, none => .error (absent name)
    return g a

/-- Tests the members of an object one after the other. -/
def checkMembers (fields : List (String × (Json → Except DecodeError Unit))) :
    List (String × Json) → Except DecodeError Unit
  | [] => .ok ()
  | (name, v) :: rest => do
      match fields.lookup name with
      | some check => check v
      | none => .ok ()
      checkMembers fields rest

/-- Tests the items of an array one after the other, as long as there are fields. -/
def checkItems : List (String × (Json → Except DecodeError Unit)) → List Json →
    Except DecodeError Unit
  | (_, check) :: fields, v :: rest => do
      check v
      checkItems fields rest
  | _, _ => .ok ()

/-- What a message calls the whole of a record in an array. -/
def lengthText (name : String) (n : Nat) : String :=
  "struct " ++ name ++ " with " ++ toString n ++ (if n = 1 then " element" else " elements")

/-- Reads a record with a given name. -/
def decode (f : Fields α) (name : String) : Decoder α
  | .object members => do
      checkMembers f.declared members
      f.build (fun field => members.lookup field) .missingField
  | .array items => do
      checkItems f.declared items
      let a ← f.build (fun field => ((f.declared.map Prod.fst).zip items).lookup field)
        (fun _ => .invalidLength items.length (lengthText name f.declared.length))
      if f.declared.length < items.length then
        throw (.invalidLength items.length "fewer elements in array")
      return a
  | v => .error (.invalidType v ("struct " ++ name))

end Fields

end DoubleEntry.Json
