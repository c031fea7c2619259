import DoubleEntry.Json.Decode
import DoubleEntry.Service.Launch
set_option autoImplicit false

/-! # The command line

Starts a ledger service with the variables of the environment and the files of the working
directory, and prints what it tells. There is no client for databases here: nobody is met at any
address, so that a service with good settings fails when it connects.
-/

namespace DoubleEntry.Main

/-- Reads a file, if there is one. -/
def read? (name : String) : IO (Option String) := do
  try
    return some (← IO.FS.readFile name)
  catch _ =>
    return none

/-- The variables of the environment, from the list of them that the system keeps. -/
def environment : IO Settings.Variables := do
  let text := (← read? "/proc/self/environ").getD ""
  return (text.splitOn "\x00").filterMap fun v =>
    match v.splitOn "=" with
    | name :: first :: rest => some (name, "=".intercalate (first :: rest))
    | _ => none

/-- The names of the files that a service reads in its working directory. -/
def fileNames : List String :=
  Settings.fileStem :: Settings.Format.extensions.map fun e => Settings.fileStem ++ "." ++ e.1

/-- The nearest file with variables in the working directory or above it. -/
def dotenv : IO (Option String) := do
  let depth := ((← IO.currentDir).toString.splitOn "/").length
  let rec look (above : String) : Nat → IO (Option String)
    | 0 => return none
    | n + 1 => do
        match ← read? (above ++ ".env") with
        | some text => return some text
        | none => look (above ++ "../") n
  look "" depth

/-- The files that a service reads. -/
def files : IO Settings.Files := do
  let found ← fileNames.filterMapM fun name => do
    return (← read? name).map fun text => (name, text)
  match ← dotenv with
  | some text => return (".env", text) :: found
  | none => return found

end DoubleEntry.Main

open DoubleEntry in
/-- Starts a service; the exit code tells whether it came to a good end. -/
def main : IO UInt32 := do
  let ending := Service.launch (← Main.environment) (← Main.files)
    { welcome := .absent, binding := .failed "no listener" }
  for r in ending.records do
    IO.println (r.toJson.render fun x => Json.floatFormat.render x)
  for line in ending.stderr do
    IO.eprintln line
  return ending.code.toUInt32
