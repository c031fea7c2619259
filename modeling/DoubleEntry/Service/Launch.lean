import DoubleEntry.Database.Connect
import DoubleEntry.Service.Exporter
import DoubleEntry.Service.LogFilter
import DoubleEntry.Settings.Load
set_option autoImplicit false

/-! # Launching a ledger service

A service loads its settings, sets its log up, connects to its database, takes its port and serves
until it is told to stop. What the world does about it (`World`) is given: how the database meets it
and whether the port is free. `launch` tells what the service writes and how it ends.
-/

namespace DoubleEntry.Service

open Settings (Variables Files)

/-- Whether the port of a service is free. -/
inductive Binding where
  /-- The port is free; it has a number when it is taken. -/
  | bound (port : Json)
  | failed (reason : String)
  deriving Repr

/-- What the world does about a service that starts. -/
structure World where
  welcome : Database.Welcome
  binding : Binding

/-- What a service wrote, and how it ended. -/
structure Ending where
  records : List LogRecord := []
  stderr : List String := []
  code : Nat := 0
  deriving Repr

/-! ## The log records of a service -/

/-- The part of the program that runs a service. -/
def mainTarget : String := "bank_ledger"

/-- The part of the program that starts a service. -/
def startTarget : String := "bank_ledger::startup"

/-- The part of the program that speaks with the database. -/
def databaseTarget : String := "bank_ledger::services::database"

/-- A record of what goes as it should. -/
def info (target message : String) (details : List (String × Json) := []) : LogRecord :=
  ⟨.info, target, message, details⟩

/-- A record of a failure. -/
def failure (target message : String) (e : LedgerError) : LogRecord :=
  ⟨.error, target, message, [("error", .string e.message)]⟩

/-- What is told about the settings of a service. -/
def loaded (s : Settings.Service) : LogRecord :=
  info mainTarget "Configuration loaded"
    [("service_name", .string s.name), ("version", .string s.version), ("port", .int s.server.port),
      ("db_max_connections", .int s.database.maxConnections),
      ("db_min_connections", .int s.database.minConnections)]

/-- What is told before a service connects to its database. -/
def connecting (a : Settings.DatabaseAccess) : LogRecord :=
  info databaseTarget "Connecting to PostgreSQL"
    [("max_connections", .int a.maxConnections), ("min_connections", .int a.minConnections)]

/-! ## Starting and stopping -/

/-- The address that a service listens at. -/
def address (port : String) : String := "0.0.0.0:" ++ port

/-- **Builds a service:** connects to its database, and then takes its port. -/
def build (access : Settings.DatabaseAccess) (port : String) (w : World) :
    Except LedgerError Json × List LogRecord :=
  match Database.connect access.url w.welcome with
  | .error e =>
      (.error e, [connecting access, failure startTarget "Failed to connect to PostgreSQL" e])
  | .ok _ =>
      let connected :=
        [connecting access, info databaseTarget "PostgreSQL connection pool established"]
      match w.binding with
      | .bound port =>
          (.ok port, connected ++ [info startTarget "Bank ledger listener bound" [("port", port)]])
      | .failed reason =>
          (.error (.configuration ("Failed to bind " ++ address port ++ ": " ++ reason)),
            connected ++ [⟨.error, startTarget, "Failed to bind HTTP listener",
              [("error", .string reason), ("addr", .string (address port))]⟩])

/-- The name under which a service presents itself. -/
def serviceName : String := "bank-ledger"

/-- The version of the service. -/
def serviceVersion : String := "0.1.0"

/-- What is told by a service that serves until it is told to stop. -/
def serving (port : Json) : List LogRecord :=
  [info startTarget "Serving ops endpoints"
      [("service", .string serviceName), ("version", .string serviceVersion), ("port", port)],
    info mainTarget "Shutdown signal received, starting graceful shutdown",
    info mainTarget "Graceful shutdown initiated",
    info mainTarget "Service shutdown complete"]

/-- The last line of a service that failed. -/
def lastLine (reason : String) : String :=
  "Error: Custom \x7b kind: Other, error: " ++ Text.quoted reason ++ " \x7d"

/-- What a service does that has its settings and its log. -/
def start (s : Settings.Service) (w : World) : Ending :=
  match build s.database (toString s.server.port) w with
  | (.ok port, records) => { records := loaded s :: records ++ serving port }
  | (.error e, records) =>
      { records := loaded s :: records ++ [failure mainTarget "Failed to build application" e]
        stderr := [lastLine ("Application build error: " ++ e.message)]
        code := 1 }

/-- **What a service does from its start to its end.** -/
def launch (env : Variables) (files : Files) (w : World) : Ending :=
  match Settings.load env files with
  | .error fault =>
      let text := fault.error.message
      { stderr := ["Failed to load configuration: " ++ text,
          lastLine ("Configuration error: " ++ text)]
        code := 1 }
  | .ok s =>
      let (filter, complaints) :=
        LogFilter.ofSettings (Settings.withDotenv env files) s.logLevel
      let ready : Except LedgerError Unit := match s.otlpEndpoint with
        | none => .ok ()
        | some endpoint => Exporter.check s.name endpoint
      match ready with
      | .error e =>
          { stderr := complaints ++ ["Failed to initialize tracing: " ++ e.message,
              lastLine ("Tracing error: " ++ e.message)]
            code := 1 }
      | .ok _ =>
          let ending := start s w
          { ending with
            records := ending.records.filter filter.shows
            stderr := complaints ++ ending.stderr }

end DoubleEntry.Service
