import DoubleEntry.Json.Parser
import DoubleEntry.Settings.Ini
import DoubleEntry.Settings.JsonFive
import DoubleEntry.Settings.Ron
import DoubleEntry.Settings.Toml
import DoubleEntry.Settings.Yaml
set_option autoImplicit false

/-! # Configuration files

A configuration file has a fixed name and the extension of its format.
-/

namespace DoubleEntry.Settings

mutual

/-- The value of a configuration that a JSON value is; whole numbers that are too large become
floating point numbers. -/
def Node.ofJson : Json → Node
  | .null => .nothing
  | .bool b => .flag b
  | .int n => if isWhole n then .int n else .float (Float.ofInt n)
  | .float x => .float x
  | .string s => .text s
  | .array items => .list (ofItems items)
  | .object members => .table (ofMembers members)

/-- The items of a list of JSON values. -/
def Node.ofItems : List Json → List Node
  | [] => []
  | v :: rest => Node.ofJson v :: ofItems rest

/-- The members of a table of JSON values. -/
def Node.ofMembers : List (String × Json) → List (String × Node)
  | [] => []
  | (n, v) :: rest => (n, Node.ofJson v) :: ofMembers rest

end

/-- The format of a configuration file. -/
inductive Format where
  | toml
  | json
  | yaml
  | ini
  | ron
  | jsonFive
  deriving DecidableEq, Repr

namespace Format

/-- The extensions of configuration files with their formats, in the order in which files are looked
for. -/
def extensions : List (String × Format) :=
  [("toml", .toml), ("json", .json), ("yaml", .yaml), ("yml", .yaml), ("ini", .ini), ("ron", .ron),
    ("json5", .jsonFive)]

/-- Reads a file of a format. -/
def read? (f : Format) (text : String) : Option Members :=
  match f with
  | .toml => Toml.read? text
  | .json => (Json.parse? text).bind fun v => (Node.ofJson v).members?
  | .yaml => Yaml.read? text
  | .ini => Ini.read? text
  | .ron => Ron.read? text
  | .jsonFive => JsonFive.read? text

end Format

/-- The files of a directory by their names. -/
abbrev Files := List (String × String)

/-- The name of configuration files without their extension. -/
def fileStem : String := "configuration"

/-- The configuration file of a directory: its name, its format and its text. A file that has the
name without an extension has no format, and keeps the others from being found. -/
def Files.configuration? (files : Files) : Option (String × Format × String) :=
  if (files.lookup fileStem).isSome then none
  else Format.extensions.findSome? fun e =>
    let name := fileStem ++ "." ++ e.1
    (files.lookup name).map fun text => (name, e.2, text)

end DoubleEntry.Settings
