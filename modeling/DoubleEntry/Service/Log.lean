import DoubleEntry.Json
set_option autoImplicit false

/-! # Log records -/

namespace DoubleEntry.Service

/-- How important a log record is, the most important first. -/
inductive Level where
  | error
  | warn
  | info
  | debug
  | trace
  deriving DecidableEq, Repr, Inhabited

namespace Level

/-- The name of a level. -/
def name : Level → String
  | .error => "ERROR"
  | .warn => "WARN"
  | .info => "INFO"
  | .debug => "DEBUG"
  | .trace => "TRACE"

/-- How verbose a log is that shows the records of a level. -/
def verbosity : Level → Nat
  | .error => 1
  | .warn => 2
  | .info => 3
  | .debug => 4
  | .trace => 5

end Level

/-- Something that is worth telling, the part of the program that tells it, and details. -/
structure LogRecord where
  level : Level
  target : String
  message : String
  details : List (String × Json) := []
  deriving Inhabited, Repr

/-- A log record as a JSON object. -/
def LogRecord.toJson (r : LogRecord) : Json :=
  .ofMembers <|
    [("level", .string r.level.name), ("message", .string r.message), ("target", .string r.target)] ++
      r.details

end DoubleEntry.Service
