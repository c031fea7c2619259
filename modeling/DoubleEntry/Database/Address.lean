import DoubleEntry.Database.Failure
import DoubleEntry.Text.Numeral
set_option autoImplicit false

/-! # Addresses of databases

The address of a database is a URL: a scheme, then after two slashes perhaps a user, a host and
perhaps a port, then a path and perhaps a query with settings. `Address.fault?` tells what makes an
address unusable, in the order in which it is read: the URL from the left to the right, and then the
settings.
-/

namespace DoubleEntry.Database.Address

/-- What makes an address unusable. -/
inductive Fault where
  | noScheme
  | emptyHost
  | invalidHost
  | invalidIpv6
  | invalidPort
  /-- A setting of the query has a value that it cannot have. -/
  | sslMode (value : String)
  | number (fault : Text.NumeralFault)
  deriving DecidableEq, Repr

/-- The failure of a client that is given an unusable address. -/
def Fault.failure : Fault → Failure
  | .noScheme => .address "relative URL without a base"
  | .emptyHost => .address "empty host"
  | .invalidHost => .address "invalid domain character"
  | .invalidIpv6 => .address "invalid IPv6 address"
  | .invalidPort => .address "invalid port number"
  | .sslMode value =>
      .address (Failure.address ("unknown value " ++ Text.quoted value ++ " for `ssl_mode`")).message
  | .number fault => .address fault.message

/-! ## The URL -/

/-- Whether a character is dropped at the ends of an address. -/
def isMargin (c : Char) : Bool := c.toNat ≤ 0x20

/-- The characters of an address that count. -/
def significant (url : String) : List Char :=
  let cs := url.toList.dropWhile isMargin
  (cs.reverse.dropWhile isMargin).reverse.filter fun c => c ≠ '\t' ∧ c ≠ '\n' ∧ c ≠ '\r'

/-- Whether a character can stand in a scheme. -/
def isSchemeChar (c : Char) : Bool := c.isAlphanum || c = '+' || c = '-' || c = '.'

/-- What follows the scheme of a URL and its colon. -/
def afterScheme? (cs : List Char) : Option (List Char) :=
  match cs with
  | [] => none
  | c :: _ =>
      if c.isAlpha then
        match cs.dropWhile isSchemeChar with
        | ':' :: rest => some rest
        | _ => none
      else none

/-- Whether a character ends the part of a URL that names the host. -/
def endsAuthority (c : Char) : Bool := c = '/' || c = '?' || c = '#'

/-- What follows the last `@`, if there is one. -/
def afterUser? (cs : List Char) : Option (List Char) :=
  if cs.contains '@' then some (cs.reverse.takeWhile (· ≠ '@')).reverse else none

/-- Splits a host from what follows it: a colon between square brackets belongs to the host. -/
def splitHost : Bool → List Char → List Char × List Char
  | _, [] => ([], [])
  | bracketed, c :: cs =>
      if c = ':' ∧ ¬ bracketed then ([], c :: cs)
      else
        let bracketed := if c = '[' then true else if c = ']' then false else bracketed
        let (host, rest) := splitHost bracketed cs
        (c :: host, rest)

/-- Whether a character cannot stand in the name of a host. -/
def isForbidden (c : Char) : Bool := "\x00\t\n\r #/:<>?@[\\]^|".toList.contains c

/-- Splits a list at a separator. -/
def splitAt (sep : Char) : List Char → List (List Char)
  | [] => [[]]
  | c :: cs =>
      match splitAt sep cs with
      | [] => [[c]]
      | first :: rest => if c = sep then [] :: first :: rest else (c :: first) :: rest

/-- Whether a text is one of the four numbers of an IPv4 address. -/
def isOctet (cs : List Char) : Bool :=
  cs.all Text.isDigit && (cs.length = 1 || (cs.length ≤ 3 && !cs.isEmpty && cs.head? ≠ some '0')) &&
    Text.ofDigits cs ≤ 255

/-- Whether a text is an IPv4 address. -/
def isIpv4 (cs : List Char) : Bool :=
  let parts := splitAt '.' cs
  parts.length = 4 && parts.all isOctet

/-- Whether a character is a hexadecimal digit. -/
def isHexDigit (c : Char) : Bool :=
  Text.isDigit c || ('a' ≤ c && c ≤ 'f') || ('A' ≤ c && c ≤ 'F')

/-- Whether a text is a group of an IPv6 address. -/
def isGroup (cs : List Char) : Bool := cs.all isHexDigit && 1 ≤ cs.length && cs.length ≤ 4

/-- How many groups some parts of an IPv6 address stand for: an IPv4 address in the last place
stands for two. -/
def groups? (final : Bool) : List (List Char) → Option Nat
  | [] => some 0
  | [part] => if isGroup part then some 1 else if final ∧ isIpv4 part then some 2 else none
  | part :: rest => if isGroup part then (groups? final rest).map (· + 1) else none

/-- Splits a text at the first pair of colons. -/
def splitGap : List Char → Option (List Char × List Char)
  | ':' :: ':' :: rest => some ([], rest)
  | c :: rest => (splitGap rest).map fun p => (c :: p.1, p.2)
  | [] => none

/-- The parts between the colons of a text, none in an empty text. -/
def colonParts (cs : List Char) : List (List Char) := if cs.isEmpty then [] else splitAt ':' cs

/-- Whether a text is an IPv6 address: eight groups, of which a pair of colons stands for those that
are left out. -/
def isIpv6 (cs : List Char) : Bool :=
  match splitGap cs with
  | some (front, back) =>
      match groups? false (colonParts front), groups? true (colonParts back) with
      | some m, some n => m + n ≤ 7
      | _, _ => false
  | none => groups? true (colonParts cs) = some 8

/-- What makes a host unusable. -/
def hostFault? (host : List Char) : Option Fault :=
  match host with
  | '[' :: rest =>
      if rest.getLast? = some ']' ∧ isIpv6 rest.dropLast then none else some .invalidIpv6
  | _ => if host.any isForbidden then some .invalidHost else none

/-- What makes a port unusable, where it stands after a host and a colon. -/
def portFault? (port : List Char) : Option Fault :=
  if port.all Text.isDigit ∧ Text.ofDigits port < Text.limit16 then none else some .invalidPort

/-- What makes a host with a port unusable. -/
def hostAndPortFault? (cs : List Char) : Option Fault :=
  match splitHost false cs with
  | (host, ':' :: port) =>
      (hostFault? host).or (if host.isEmpty then some .emptyHost else portFault? port)
  | (host, _) => hostFault? host

/-- What makes the user and the host unusable that a URL names after its scheme. -/
def authorityFault? (cs : List Char) : Option Fault :=
  let authority := cs.takeWhile fun c => !endsAuthority c
  if authority = ['@'] then if cs = authority then none else some .emptyHost
  else hostAndPortFault? ((afterUser? authority).getD authority)

/-- What makes the URL of an address unusable. -/
def urlFault? (cs : List Char) : Option Fault :=
  match afterScheme? cs with
  | none => some .noScheme
  | some ('/' :: '/' :: rest) => authorityFault? rest
  | some _ => none

/-! ## The settings -/

/-- The value of a hexadecimal digit. -/
def hexValue (c : Char) : Nat :=
  if Text.isDigit c then Text.digitValue c else c.toLower.toNat - 87

/-- The bytes of an encoded name or value: a plus sign stands for a blank, and a percent sign stands
in front of the two digits of a byte. -/
def decodedBytes : List Char → List UInt8
  | [] => []
  | '%' :: a :: b :: rest =>
      if isHexDigit a ∧ isHexDigit b then
        (hexValue a * 16 + hexValue b).toUInt8 :: decodedBytes rest
      else 37 :: decodedBytes (a :: b :: rest)
  | '+' :: rest => 32 :: decodedBytes rest
  | c :: rest => c.toString.toUTF8.toList ++ decodedBytes rest

/-- The text that an encoded name or value stands for. -/
def decoded (cs : List Char) : String :=
  (String.fromUTF8? (ByteArray.mk (decodedBytes cs).toArray)).getD ""

/-- The settings in the query of a URL. -/
def settings (cs : List Char) : List (String × String) :=
  match (cs.takeWhile (· ≠ '#')).dropWhile (· ≠ '?') with
  | '?' :: query =>
      ((splitAt '&' query).filter fun part => !part.isEmpty).map fun part =>
        (decoded (part.takeWhile (· ≠ '=')), decoded ((part.dropWhile (· ≠ '=')).drop 1))
  | _ => []

/-- The ways to use TLS. -/
def sslModes : List String := ["disable", "allow", "prefer", "require", "verify-ca", "verify-full"]

/-- What makes a numeral unusable as a setting. -/
def numberFault? (limit : Nat) (value : String) : Option Fault :=
  match Text.numeral limit value.toList with
  | .ok _ => none
  | .error fault => some (.number fault)

/-- What makes a setting unusable. -/
def settingFault? (name value : String) : Option Fault :=
  if name = "sslmode" ∨ name = "ssl-mode" then
    if sslModes.contains value.toLower then none else some (.sslMode value)
  else if name = "statement-cache-capacity" then numberFault? Text.limit64 value
  else if name = "port" then numberFault? Text.limit16 value
  else none

/-- **What makes an address unusable,** if anything does. -/
def fault? (url : String) : Option Fault :=
  let cs := significant url
  (urlFault? cs).or ((settings cs).findSome? fun s => settingFault? s.1 s.2)

end DoubleEntry.Database.Address
