import DoubleEntry.Database.Session
import DoubleEntry.Json
set_option autoImplicit false

/-! # The endpoints of a ledger service

A service tells over HTTP whether its database answers, whether it is ready for transfers, and what
it has counted.
-/

namespace DoubleEntry.Service

open Database (Session)

/-- What can be asked of a service. -/
inductive Endpoint where
  | health
  | ready
  | metrics
  deriving DecidableEq, Repr

/-- The body of an HTTP answer. -/
inductive Body where
  | empty
  | json (v : Json)
  | lines (ls : List String)
  deriving Repr

/-- An HTTP answer. -/
structure HttpAnswer where
  status : Nat
  contentType : Option String := none
  /-- The methods that could have been used. -/
  allow : Option String := none
  body : Body := .empty
  deriving Repr

namespace Endpoint

/-- The endpoint at a path. The query of the path does not matter, all else has to fit exactly. -/
def atPath? (path : String) : Option Endpoint :=
  match String.ofList (path.toList.takeWhile (· ≠ '?')) with
  | "/health" => some .health
  | "/ready" => some .ready
  | "/metrics" => some .metrics
  | _ => none

/-- What is told about a service whose database answers, or fails to. -/
def healthReport (pool : Json) : Except LedgerError Unit → HttpAnswer
  | .ok _ =>
      { status := 200
        contentType := some "application/json"
        body := .json (.ofMembers [("status", .string "ok"), ("service", .string "bank-ledger"),
          ("version", .string "0.1.0"), ("pool", pool)]) }
  | .error e =>
      { status := 503
        contentType := some "application/json"
        body := .json (.ofMembers [("status", .string "unhealthy"),
          ("service", .string "bank-ledger"), ("error", .string e.message), ("pool", pool)]) }

/-- The answer of an endpoint; `pool` describes the connections to the database. -/
def answer (s : Session) (pool : Json) : Endpoint → HttpAnswer × Session
  | .health => let (r, s) := s.healthCheck; (healthReport pool r, s)
  | .ready =>
      match s.healthCheck with
      | (.ok _, s) => ({ status := 200 }, s)
      | (.error _, s) => ({ status := 503 }, s)
  | .metrics =>
      ({ status := 200
         contentType := some "text/plain; version=0.0.4"
         body := .lines s.metrics.lines }, s)

end Endpoint

/-- **Answers an HTTP request.** Only `GET` and `HEAD` are understood; an answer to `HEAD` has no
body. -/
def respond (s : Session) (pool : Json) (method path : String) : HttpAnswer × Session :=
  match Endpoint.atPath? path with
  | none => ({ status := 404 }, s)
  | some e =>
      if method = "GET" then e.answer s pool
      else if method = "HEAD" then
        let (a, s) := e.answer s pool
        ({ a with body := .empty }, s)
      else ({ status := 405, allow := some "GET,HEAD" }, s)

end DoubleEntry.Service
