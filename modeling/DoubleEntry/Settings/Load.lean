import DoubleEntry.Error
import DoubleEntry.Json.Decode
import DoubleEntry.Settings.Dotenv
import DoubleEntry.Settings.File
import DoubleEntry.Settings.Port
set_option autoImplicit false

/-! # Loading the settings

The settings of a ledger service come from the variables of its environment, to which a file `.env`
may add. Those of the server may also stand in a configuration file; variables whose names begin
with `APP__` take precedence over it.
-/

namespace DoubleEntry.Settings

/-- The settings of the server. -/
structure Server where
  port : Nat := 8080
  deriving DecidableEq, Repr, Inhabited

namespace Server

/-- How the settings of the server are read from a JSON value. -/
def fields : Json.Fields Server :=
  (Json.Fields.nothing fun n : Int => ({ port := n.toNat } : Server)).field "port"
    (Json.decodeInt Json.unsigned16) (some 8080)

/-- Reads the settings of the server from a JSON value. -/
def decode : Json.Decoder Server := fields.decode "ServerConfig"

/-- The written fields of the settings of the server. -/
def written (s : Server) : List (String × Json) := [("port", .int s.port)]

end Server

/-- The settings of the database. -/
structure DatabaseAccess where
  url : String
  maxConnections : Nat := 10
  minConnections : Nat := 2
  /-- How many seconds to wait for a connection. -/
  acquireTimeout : Nat := 30
  deriving DecidableEq, Repr, Inhabited

/-- The settings of a ledger service. -/
structure Service where
  server : Server := {}
  name : String := "bank-ledger"
  version : String := "0.1.0"
  logLevel : String := "info"
  /-- Where traces are sent to. -/
  otlpEndpoint : Option String := none
  database : DatabaseAccess
  deriving DecidableEq, Repr, Inhabited

/-- Why there are no settings. -/
inductive Fault where
  /-- A configuration file is not of the format that its name tells. -/
  | unreadable (file : String)
  | port (fault : PortFault)
  | noDatabaseUrl
  deriving Repr

/-- What is told about missing settings; what is told about a file is left to the reader of its
format. -/
def Fault.reason? : Fault → Option String
  | .unreadable _ => none
  | .port fault => some fault.message
  | .noDatabaseUrl => some "DATABASE_URL is required"

/-- The error of a service without settings. -/
def Fault.error (f : Fault) : LedgerError := .configuration (f.reason?.getD "")

/-! ## The server -/

/-- How the names of variables with settings of the server begin. -/
def variableStem : String := "app__"

/-- The settings that the variables of an environment give to the server. Two underscores separate
the names in a path. -/
def variableSettings (env : Variables) : List (String × Node) :=
  env.filterMap fun v =>
    let name := v.1.toLower
    if name.startsWith variableStem then
      some ((String.ofList (name.toList.drop variableStem.length)).replace "__" ".", .text v.2)
    else none

/-- The settings of a configuration file. -/
def fileSettings (files : Files) : Except Fault (Option (String × Members)) :=
  match files.configuration? with
  | none => .ok none
  | some (name, format, text) =>
      match format.read? text with
      | some ms => .ok (some (name, ms))
      | none => .error (.unreadable name)

/-- **Loads the settings of the server.** -/
def loadServer (env : Variables) (files : Files) : Except Fault Server := do
  let fromFile : Merged := match ← fileSettings files with
    | some (name, ms) => Merged.add [] name ms
    | none => []
  let merged := fromFile.add "the environment" (variableSettings env)
  match merged.lookup "port" with
  | none => return {}
  | some s => return { port := ← s.port.mapError .port }

/-! ## The service -/

/-- The number that a variable holds, or a default if it does not hold a number below a limit. -/
def numberOr (env : Variables) (name : String) (limit default : Nat) : Nat :=
  match env.lookup name with
  | none => default
  | some v => (Text.numeral limit v.toList).toOption.getD default

/-- The text that a variable holds, or a default if there is no such variable. -/
def textOr (env : Variables) (name default : String) : String :=
  (env.lookup name).getD default

/-- The environment with what the file `.env` adds to it. -/
def withDotenv (env : Variables) (files : Files) : Variables :=
  match files.lookup ".env" with
  | some text => Dotenv.load env text
  | none => env

/-- **Loads the settings of a service.** What is wrong with the settings of the server is found
before the lack of a database. -/
def load (env : Variables) (files : Files) : Except Fault Service := do
  let env := withDotenv env files
  let server ← loadServer env files
  let url ← match env.lookup "DATABASE_URL" with
    | some url => .ok url
    | none => .error Fault.noDatabaseUrl
  let endpoint := env.lookup "OTLP_ENDPOINT"
  return {
    server
    name := textOr env "SERVICE_NAME" "bank-ledger"
    version := textOr env "SERVICE_VERSION" "0.1.0"
    logLevel := textOr env "LOG_LEVEL" "info"
    otlpEndpoint := endpoint.filter fun e => !e.isEmpty
    database := {
      url
      maxConnections := numberOr env "DATABASE_MAX_CONNECTIONS" Text.limit32 10
      minConnections := numberOr env "DATABASE_MIN_CONNECTIONS" Text.limit32 2
      acquireTimeout := numberOr env "DATABASE_ACQUIRE_TIMEOUT_SECS" Text.limit64 30 } }

end DoubleEntry.Settings
