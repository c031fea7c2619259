import DoubleEntry.Json.Decode
import DoubleEntry.Page
import DoubleEntry.Records
import DoubleEntry.Timestamp.Rfc3339
set_option autoImplicit false

/-! # The records of a ledger as JSON values

For every kind of record there is a decoder and the list of its written fields in the order of
declaration. `Written.toJson` makes the object of them, `Written.toArray` the array.
-/

namespace DoubleEntry

open Json (Fields Decoder decodeInt decodeString signed64)

/-- The written fields of a record, in the order of declaration. -/
abbrev Written := List (String × Json)

namespace Written

/-- The record as an object. -/
def toJson (w : Written) : Json := .ofMembers w

/-- The record as an array. -/
def toArray (w : Written) : Json := .array (w.map Prod.snd)

end Written

/-! ## Timestamps and currencies -/

/-- Reads a timestamp. -/
def Timestamp.decode : Decoder Timestamp
  | .string s => (Timestamp.parse s).mapError fun e => .custom e.message
  | v => .error (.invalidType v "an RFC 3339 formatted date and time string")

/-- Writes a timestamp. -/
def Timestamp.toJson (t : Timestamp) : Json := .string t.render

namespace Currency

/-- Reads the code of a currency. -/
def decodeCode (s : String) : Except Json.DecodeError Currency :=
  match ofCode? s with
  | some c => .ok c
  | none => .error (.unknownVariant s (all.map code))

/-- Reads a currency: its code, or an object with the code as its only name and no value. -/
def decode : Decoder Currency
  | .string s => decodeCode s
  | .object [(s, v)] => do
      let c ← decodeCode s
      match v with
      | .null => return c
      | v => throw (.invalidType v "unit")
  | .object members => .error (.invalidValue (.object members) "map with a single key")
  | v => .error (.invalidType v "string or map")

/-- Writes a currency. -/
def toJson (c : Currency) : Json := .string c.code

end Currency

/-! ## Records -/

namespace Account

/-- How the fields of an account are read. -/
def fields : Fields Account :=
  Fields.nothing mk
    |>.field "id" (decodeInt signed64)
    |>.field "owner" decodeString
    |>.field "balance" (decodeInt signed64)
    |>.field "currency" decodeString
    |>.field "created_at" Timestamp.decode

/-- Reads an account. -/
def decode : Decoder Account := fields.decode "Account"

/-- The written fields of an account. -/
def written (a : Account) : Written :=
  [("id", .int a.id), ("owner", .string a.owner), ("balance", .int a.balance),
    ("currency", .string a.currency), ("created_at", a.createdAt.toJson)]

end Account

namespace NewAccount

/-- How the fields of an account to open are read. -/
def fields : Fields NewAccount :=
  Fields.nothing mk
    |>.field "owner" decodeString
    |>.field "balance" (decodeInt signed64)
    |>.field "currency" Currency.decode

/-- Reads an account to open. -/
def decode : Decoder NewAccount := fields.decode "CreateAccount"

/-- The written fields of an account to open. -/
def written (a : NewAccount) : Written :=
  [("owner", .string a.owner), ("balance", .int a.balance), ("currency", a.currency.toJson)]

end NewAccount

namespace Page

/-- How the fields of a page are read. -/
def fields : Fields Page :=
  Fields.nothing mk
    |>.field "limit" (decodeInt signed64)
    |>.field "offset" (decodeInt signed64)

/-- Reads a page. -/
def decode : Decoder Page := fields.decode "Pagination"

/-- The written fields of a page. -/
def written (p : Page) : Written := [("limit", .int p.limit), ("offset", .int p.offset)]

end Page

namespace Entry

/-- How the fields of an entry are read. -/
def fields : Fields Entry :=
  Fields.nothing mk
    |>.field "id" (decodeInt signed64)
    |>.field "account_id" (decodeInt signed64)
    |>.field "amount" (decodeInt signed64)
    |>.field "created_at" Timestamp.decode

/-- Reads an entry. -/
def decode : Decoder Entry := fields.decode "Entry"

/-- The written fields of an entry. -/
def written (e : Entry) : Written :=
  [("id", .int e.id), ("account_id", .int e.account), ("amount", .int e.amount),
    ("created_at", e.createdAt.toJson)]

end Entry

namespace NewEntry

/-- How the fields of an entry to record are read. -/
def fields : Fields NewEntry :=
  Fields.nothing mk
    |>.field "account_id" (decodeInt signed64)
    |>.field "amount" (decodeInt signed64)

/-- Reads an entry to record. -/
def decode : Decoder NewEntry := fields.decode "CreateEntry"

/-- The written fields of an entry to record. -/
def written (e : NewEntry) : Written := [("account_id", .int e.account), ("amount", .int e.amount)]

end NewEntry

namespace Transfer

/-- How the fields of a transfer are read. -/
def fields : Fields Transfer :=
  Fields.nothing mk
    |>.field "id" (decodeInt signed64)
    |>.field "from_account_id" (decodeInt signed64)
    |>.field "to_account_id" (decodeInt signed64)
    |>.field "amount" (decodeInt signed64)
    |>.field "created_at" Timestamp.decode

/-- Reads a transfer. -/
def decode : Decoder Transfer := fields.decode "Transfer"

/-- The written fields of a transfer. -/
def written (t : Transfer) : Written :=
  [("id", .int t.id), ("from_account_id", .int t.source), ("to_account_id", .int t.target),
    ("amount", .int t.amount), ("created_at", t.createdAt.toJson)]

end Transfer

namespace NewTransfer

/-- How the fields of a transfer to record are read. -/
def fields : Fields NewTransfer :=
  Fields.nothing mk
    |>.field "from_account_id" (decodeInt signed64)
    |>.field "to_account_id" (decodeInt signed64)
    |>.field "amount" (decodeInt signed64)

/-- Reads a transfer to record. -/
def decode : Decoder NewTransfer := fields.decode "CreateTransfer"

/-- Reads a transfer to carry out. -/
def decodeRequest : Decoder NewTransfer := fields.decode "TransferParams"

/-- The written fields of a transfer to record. -/
def written (t : NewTransfer) : Written :=
  [("from_account_id", .int t.source), ("to_account_id", .int t.target), ("amount", .int t.amount)]

end NewTransfer

namespace Receipt

/-- How the fields of a receipt are read. -/
def fields : Fields Receipt :=
  Fields.nothing mk
    |>.field "transfer" Transfer.decode
    |>.field "from_account" Account.decode
    |>.field "to_account" Account.decode
    |>.field "from_entry" Entry.decode
    |>.field "to_entry" Entry.decode

/-- Reads a receipt. -/
def decode : Decoder Receipt := fields.decode "TransferResult"

/-- The written fields of a receipt, for a way to write the records in it. -/
def writtenWith (json : Written → Json) (r : Receipt) : Written :=
  [("transfer", json r.transfer.written), ("from_account", json r.source.written),
    ("to_account", json r.target.written), ("from_entry", json r.debit.written),
    ("to_entry", json r.credit.written)]

/-- The written fields of a receipt. -/
def written (r : Receipt) : Written := r.writtenWith Written.toJson

end Receipt

end DoubleEntry
