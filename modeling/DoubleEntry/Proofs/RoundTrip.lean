import DoubleEntry.Amount
import DoubleEntry.Proofs.Codecs
import DoubleEntry.Proofs.Timestamps
set_option autoImplicit false

/-! # Records survive being written and read

What is read from any JSON value is written in a normal form, from which the same is read again, and
which is written once more in the same way. The array of the written fields reads the same as the
object of them, also where records stand in a record (`Kind.round_trip`).

A record can be read when its numbers fit in 64 bits, and only then (`Kind.exact`): its texts, its
currency and its timestamp may be any.
-/

namespace DoubleEntry

open Json (Decoder Exact exact_int exact_string signed64)
open Json.Fields (Tells)
open Amount (InRange)

/-! ## Plain values -/

theorem exact_amount : Exact (Json.decodeInt signed64) .int InRange := exact_int signed64

theorem Timestamp.exact : Exact Timestamp.decode Timestamp.toJson fun _ => True where
  valid_of_decode _ := trivial
  decode_json {t} _ := by
    simp only [Timestamp.toJson, Timestamp.decode, Timestamp.parse_render]
    rfl

theorem Currency.exact : Exact Currency.decode Currency.toJson fun _ => True where
  valid_of_decode _ := trivial
  decode_json {c} _ := by
    simp only [Currency.toJson, Currency.decode, Currency.decodeCode, Currency.ofCode?_code]

/-! ## Records -/

namespace Account

/-- The numbers of an account are in range. -/
def Ranged (a : Account) : Prop := InRange a.id ∧ InRange a.balance

theorem exact (form : Form) : Exact decode (fun a => form.json a.written) Ranged := by
  have h := (Tells.nothing mk).field "id" exact_amount
    |>.field "owner" exact_string
    |>.field "balance" exact_amount
    |>.field "currency" exact_string
    |>.field "created_at" Timestamp.exact
  refine (h.exact (fun a => ((((((), a.id), a.owner), a.balance), a.currency), a.createdAt))
    (fun _ => rfl) (fun _ => rfl) (fun _ => by simp) "Account" form).congr fun a => ?_
  simp [Ranged]

end Account

namespace NewAccount

/-- The balance of an account to open is in range. -/
def Ranged (a : NewAccount) : Prop := InRange a.balance

theorem exact (form : Form) : Exact decode (fun a => form.json a.written) Ranged := by
  have h := (Tells.nothing mk).field "owner" exact_string
    |>.field "balance" exact_amount
    |>.field "currency" Currency.exact
  refine (h.exact (fun a => ((((), a.owner), a.balance), a.currency))
    (fun _ => rfl) (fun _ => rfl) (fun _ => by simp) "CreateAccount" form).congr fun a => ?_
  simp [Ranged]

end NewAccount

namespace Page

/-- The numbers of a page are in range. -/
def Ranged (p : Page) : Prop := InRange p.limit ∧ InRange p.offset

theorem exact (form : Form) : Exact decode (fun p => form.json p.written) Ranged := by
  have h := (Tells.nothing mk).field "limit" exact_amount
    |>.field "offset" exact_amount
  refine (h.exact (fun p => (((), p.limit), p.offset))
    (fun _ => rfl) (fun _ => rfl) (fun _ => by simp) "Pagination" form).congr fun p => ?_
  simp [Ranged]

end Page

namespace Entry

/-- The numbers of an entry are in range. -/
def Ranged (e : Entry) : Prop := InRange e.id ∧ InRange e.account ∧ InRange e.amount

theorem exact (form : Form) : Exact decode (fun e => form.json e.written) Ranged := by
  have h := (Tells.nothing mk).field "id" exact_amount
    |>.field "account_id" exact_amount
    |>.field "amount" exact_amount
    |>.field "created_at" Timestamp.exact
  refine (h.exact (fun e => (((((), e.id), e.account), e.amount), e.createdAt))
    (fun _ => rfl) (fun _ => rfl) (fun _ => by simp) "Entry" form).congr fun e => ?_
  simp [Ranged, and_assoc]

end Entry

namespace NewEntry

/-- The numbers of an entry to record are in range. -/
def Ranged (e : NewEntry) : Prop := InRange e.account ∧ InRange e.amount

theorem exact (form : Form) : Exact decode (fun e => form.json e.written) Ranged := by
  have h := (Tells.nothing mk).field "account_id" exact_amount
    |>.field "amount" exact_amount
  refine (h.exact (fun e => (((), e.account), e.amount))
    (fun _ => rfl) (fun _ => rfl) (fun _ => by simp) "CreateEntry" form).congr fun e => ?_
  simp [Ranged]

end NewEntry

namespace Transfer

/-- The numbers of a transfer are in range. -/
def Ranged (t : Transfer) : Prop :=
  InRange t.id ∧ InRange t.source ∧ InRange t.target ∧ InRange t.amount

theorem exact (form : Form) : Exact decode (fun t => form.json t.written) Ranged := by
  have h := (Tells.nothing mk).field "id" exact_amount
    |>.field "from_account_id" exact_amount
    |>.field "to_account_id" exact_amount
    |>.field "amount" exact_amount
    |>.field "created_at" Timestamp.exact
  refine (h.exact (fun t => ((((((), t.id), t.source), t.target), t.amount), t.createdAt))
    (fun _ => rfl) (fun _ => rfl) (fun _ => by simp) "Transfer" form).congr fun t => ?_
  simp [Ranged, and_assoc]

end Transfer

namespace NewTransfer

/-- The numbers of a transfer to record are in range. -/
def Ranged (t : NewTransfer) : Prop := InRange t.source ∧ InRange t.target ∧ InRange t.amount

/-- Transfers to record and transfers to carry out are read alike, but for the name of the record in
messages. -/
theorem exact_fields (name : String) (form : Form) :
    Exact (fields.decode name) (fun t => form.json t.written) Ranged := by
  have h := (Tells.nothing mk).field "from_account_id" exact_amount
    |>.field "to_account_id" exact_amount
    |>.field "amount" exact_amount
  refine (h.exact (fun t => ((((), t.source), t.target), t.amount))
    (fun _ => rfl) (fun _ => rfl) (fun _ => by simp) name form).congr fun t => ?_
  simp [Ranged, and_assoc]

end NewTransfer

namespace Receipt

/-- The numbers in the records of a receipt are in range. -/
def Ranged (r : Receipt) : Prop :=
  r.transfer.Ranged ∧ r.source.Ranged ∧ r.target.Ranged ∧ r.debit.Ranged ∧ r.credit.Ranged

theorem exact (outer inner : Form) :
    Exact decode (fun r => outer.json (r.writtenWith inner.json)) Ranged := by
  have h := (Tells.nothing mk).field "transfer" (Transfer.exact inner)
    |>.field "from_account" (Account.exact inner)
    |>.field "to_account" (Account.exact inner)
    |>.field "from_entry" (Entry.exact inner)
    |>.field "to_entry" (Entry.exact inner)
  refine (h.exact (fun r => ((((((), r.transfer), r.source), r.target), r.debit), r.credit))
    (fun _ => rfl) (fun _ => rfl) (fun _ => by simp) "TransferResult" outer).congr fun r => ?_
  simp [Ranged, and_assoc]

end Receipt

/-! ## All kinds together -/

/-- The kinds of values that are exchanged as JSON. -/
inductive Kind where
  | currency
  | account
  | newAccount
  | page
  | entry
  | newEntry
  | transfer
  | newTransfer
  /-- A transfer to carry out. -/
  | request
  | receipt
  deriving DecidableEq, Repr

namespace Kind

/-- The values of a kind. -/
def Value : Kind → Type
  | .currency => Currency
  | .account => Account
  | .newAccount => NewAccount
  | .page => Page
  | .entry => Entry
  | .newEntry => NewEntry
  | .transfer => Transfer
  | .newTransfer | .request => NewTransfer
  | .receipt => Receipt

/-- How the values of a kind are read. -/
def decode : (k : Kind) → Decoder k.Value
  | .currency => Currency.decode
  | .account => Account.decode
  | .newAccount => NewAccount.decode
  | .page => Page.decode
  | .entry => Entry.decode
  | .newEntry => NewEntry.decode
  | .transfer => Transfer.decode
  | .newTransfer => NewTransfer.decode
  | .request => NewTransfer.decodeRequest
  | .receipt => Receipt.decode

/-- How the values of a kind are written, for the form of a record and the form of the records that
stand in it. A currency is no record. -/
def write (outer inner : Form) : (k : Kind) → k.Value → Json
  | .currency, c => Currency.toJson c
  | .account, a => outer.json (Account.written a)
  | .newAccount, a => outer.json (NewAccount.written a)
  | .page, p => outer.json (Page.written p)
  | .entry, e => outer.json (Entry.written e)
  | .newEntry, e => outer.json (NewEntry.written e)
  | .transfer, t => outer.json (Transfer.written t)
  | .newTransfer, t | .request, t => outer.json (NewTransfer.written t)
  | .receipt, r => outer.json (Receipt.writtenWith inner.json r)

/-- The JSON value that a value of a kind is written as. -/
def toJson (k : Kind) (m : k.Value) : Json := k.write .object .object m

/-- Reads a value and writes it again. -/
def normalize (k : Kind) (v : Json) : Except Json.DecodeError Json := (k.decode v).map k.toJson

/-- The numbers in a value are in range. -/
def Ranged : (k : Kind) → k.Value → Prop
  | .currency, _ => True
  | .account, a => Account.Ranged a
  | .newAccount, a => NewAccount.Ranged a
  | .page, p => Page.Ranged p
  | .entry, e => Entry.Ranged e
  | .newEntry, e => NewEntry.Ranged e
  | .transfer, t => Transfer.Ranged t
  | .newTransfer, t | .request, t => NewTransfer.Ranged t
  | .receipt, r => Receipt.Ranged r

/-- **Of each kind just the values are read whose numbers are in range**, from all forms of them. -/
theorem exact (k : Kind) (outer inner : Form) : Exact k.decode (k.write outer inner) k.Ranged :=
  match k with
  | .currency => Currency.exact
  | .account => Account.exact outer
  | .newAccount => NewAccount.exact outer
  | .page => Page.exact outer
  | .entry => Entry.exact outer
  | .newEntry => NewEntry.exact outer
  | .transfer => Transfer.exact outer
  | .newTransfer => NewTransfer.exact_fields "CreateTransfer" outer
  | .request => NewTransfer.exact_fields "TransferParams" outer
  | .receipt => Receipt.exact outer inner

/-- **Every value with numbers in range can be read, and what was read from some JSON value is read
again from what is written of it**, in all forms; writing it once more changes nothing. -/
theorem round_trip (k : Kind) (m : k.Value) :
    ((∃ v, k.decode v = .ok m) ↔ k.Ranged m) ∧
      ∀ v, k.decode v = .ok m →
        k.decode (k.toJson m) = .ok m ∧
          k.normalize v = .ok (k.toJson m) ∧ k.normalize (k.toJson m) = .ok (k.toJson m) ∧
          ∀ outer inner, k.decode (k.write outer inner m) = .ok m := by
  refine ⟨(k.exact .object .object).exists_decode_iff m, fun v h => ?_⟩
  have hranged := (k.exact .object .object).valid_of_decode h
  have hread (outer inner : Form) : k.decode (k.write outer inner m) = .ok m :=
    (k.exact outer inner).decode_json hranged
  have hagain : k.decode (k.toJson m) = .ok m := hread .object .object
  refine ⟨hagain, ?_, ?_, hread⟩
  · rw [normalize, h]
    rfl
  · rw [normalize, hagain]
    rfl

/-- A currency may be given as an object of one member; it is written as its code. -/
example : Kind.currency.normalize (.object [("EUR", .null)]) = .ok (.string "EUR") := rfl

/-- A receipt in which arrays and objects are mixed, with numbers at both ends of the range, a
member that is no field, and times with offsets, with a leap second, with more digits than count and
at both ends of the range. -/
def mixedJson : Json :=
  .object [
    ("from_account", .object [("balance", .int 95),
      ("created_at", .string "+262142-12-31T23:59:59.999Z"), ("currency", .string "?"),
      ("id", .int 2), ("note", .null), ("owner", .string "b")]),
    ("from_entry", .array [.int 1, .int 2, .int (-5), .string "1970-01-01t00:00:00 utc"]),
    ("to_account", .array [.int 3, .string "c", .int 5, .string "USD",
      .string "2024-02-29T23:30:00.5-01:30"]),
    ("to_entry", .object [("account_id", .int 3), ("amount", .int 5),
      ("created_at", .string "-262143-01-01T00:00:00.000000001z"), ("id", .int 2)]),
    ("transfer", .array [.int 9223372036854775807, .int (-9223372036854775808), .int 3, .int 5,
      .string "-0001-12-31 23:59:60.1234567891+00:30"])]

/-- The receipt that is read from it. -/
def mixedReceipt : Receipt where
  transfer := ⟨9223372036854775807, -9223372036854775808, 3, 5,
    ⟨-62167221001, 1123456789, by decide, by decide, by decide, by decide⟩⟩
  source := ⟨2, "b", 95, "?",
    ⟨8210266876799, 999000000, by decide, by decide, by decide, by decide⟩⟩
  target := ⟨3, "c", 5, "USD",
    ⟨1709254800, 500000000, by decide, by decide, by decide, by decide⟩⟩
  debit := ⟨1, 2, -5, .epoch⟩
  credit := ⟨2, 3, 5, ⟨-8334601228800, 1, by decide, by decide, by decide, by decide⟩⟩

theorem round_trip_mixed :
    Kind.receipt.decode mixedJson = .ok mixedReceipt ∧
      Kind.receipt.decode (Kind.receipt.toJson mixedReceipt) = .ok mixedReceipt ∧
      Kind.receipt.normalize mixedJson = .ok (Kind.receipt.toJson mixedReceipt) ∧
      Kind.receipt.normalize (Kind.receipt.toJson mixedReceipt) =
        .ok (Kind.receipt.toJson mixedReceipt) ∧
      ∀ outer inner,
        Kind.receipt.decode (Kind.receipt.write outer inner mixedReceipt) = .ok mixedReceipt :=
  have h : Kind.receipt.decode mixedJson = .ok mixedReceipt := rfl
  ⟨h, (Kind.round_trip .receipt mixedReceipt).2 mixedJson h⟩

end Kind

end DoubleEntry
