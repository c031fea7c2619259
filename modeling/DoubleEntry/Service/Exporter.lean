import DoubleEntry.Error
set_option autoImplicit false

/-! # The endpoint that traces are exported to

Traces may be exported to a server, whose address is a URI. An address that cannot be a URI keeps
the service from starting; whether anyone listens there does not matter.
-/

namespace DoubleEntry.Service.Exporter

/-- What is wrong with a URI. -/
inductive UriFault where
  | empty
  | character
  | scheme
  | authority
  | format
  | length
  deriving DecidableEq, Repr

/-- What is told about a URI. -/
def UriFault.message : UriFault → String
  | .empty => "empty string"
  | .character => "invalid uri character"
  | .scheme => "scheme too long"
  | .authority => "invalid authority"
  | .format => "invalid format"
  | .length => "uri too long"

/-- Whether a character can stand in a URI. -/
def isUriChar (c : Char) : Bool := c.isAlphanum || "!#$&'()*+,-./:;=?@[]_~".toList.contains c

/-- Whether a character can stand in a scheme. -/
def isSchemeChar (c : Char) : Bool := c.isAlphanum || c = '+' || c = '-' || c = '.'

/-- The scheme of a URI and what follows it. -/
def splitScheme (cs : List Char) : Except UriFault (Option (List Char) × List Char) :=
  let scheme := cs.takeWhile isSchemeChar
  match cs.dropWhile isSchemeChar with
  | ':' :: '/' :: '/' :: rest =>
      if 64 < scheme.length then .error .scheme else .ok (some scheme, rest)
  | _ => .ok (none, cs)

/-- What has been seen of an authority. -/
structure Seen where
  colons : Nat := 0
  opened : Bool := false
  closed : Bool := false
  percent : Bool := false
  last : Char := ' '

/-- Takes the next character of an authority. -/
def Seen.take (s : Seen) (c : Char) : Except UriFault Seen :=
  if c = ':' then
    if 8 ≤ s.colons then .error .authority else .ok { s with colons := s.colons + 1, last := c }
  else if c = '[' then
    if s.percent ∨ s.opened then .error .authority else .ok { s with opened := true, last := c }
  else if c = ']' then
    if ¬ s.opened ∨ s.closed then .error .authority
    else .ok { s with closed := true, colons := 0, percent := false, last := c }
  else if c = '@' then .ok { s with colons := 0, percent := false, last := c }
  else if c = '%' then .ok { s with percent := true, last := c }
  else if isUriChar c then .ok { s with last := c }
  else .error .character

/-- Whether a character ends an authority. -/
def endsAuthority (c : Char) : Bool := c = '/' || c = '?' || c = '#'

/-- Checks the authority of a URI; what follows it. -/
def checkAuthority (cs : List Char) : Except UriFault (List Char) := do
  let authority := cs.takeWhile fun c => !endsAuthority c
  let s ← authority.foldlM Seen.take {}
  if s.opened ≠ s.closed ∨ 1 < s.colons ∨ s.last = '@' ∨ s.percent then throw .authority
  return cs.drop authority.length

/-- Whether a character can stand in a path. -/
def isPathChar (c : Char) : Bool :=
  128 ≤ c.toNat || (33 ≤ c.toNat && c.toNat ≤ 126 && c ≠ '<' && c ≠ '>' && c ≠ '`')

/-- Whether a character can stand in a query. -/
def isQueryChar (c : Char) : Bool :=
  128 ≤ c.toNat || (33 ≤ c.toNat && c.toNat ≤ 126 && c ≠ '<' && c ≠ '>' && c ≠ '"')

/-- Checks the path and the query of a URI; a fragment is not looked at. -/
def checkPath (cs : List Char) : Except UriFault Unit :=
  let shown := cs.takeWhile (· ≠ '#')
  if (shown.takeWhile (· ≠ '?')).all isPathChar ∧ (shown.dropWhile (· ≠ '?')).all isQueryChar then
    .ok ()
  else .error .character

/-- Checks a URI. -/
def checkUri (s : String) : Except UriFault Unit := do
  let cs := s.toList
  if cs.isEmpty then throw .empty
  if 65534 < s.utf8ByteSize then throw .length
  if cs = ['/'] ∨ cs = ['*'] then return
  else if cs.head? = some '/' then checkPath cs
  else
    let (scheme, rest) ← splitScheme cs
    let after ← checkAuthority rest
    match scheme with
    | none => if !after.isEmpty then throw .format
    | some _ =>
        if after.length = rest.length then throw .format
        checkPath after

/-- **Checks the endpoint that the traces of a service are exported to.** -/
def check (service endpoint : String) : Except LedgerError Unit :=
  (checkUri endpoint).mapError fun fault => .configuration
    ("Failed to initialize OTLP tracer for service '" ++ service ++ "' at endpoint '" ++ endpoint ++
      "': Exporter otlp encountered the following error(s): invalid URI " ++ fault.message)

end DoubleEntry.Service.Exporter
