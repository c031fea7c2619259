import DoubleEntry.Bank.Lock
set_option autoImplicit false

/-! # Opening, changing and deleting accounts

Single statements that take effect at once. Changing and deleting an account needs the lock of its
row, and the statement waits for it; it holds no other lock meanwhile.
-/

namespace DoubleEntry.Bank

/-- Opens an account. The number is used up even if the balance is rejected. -/
def createAccount (b : Bank) (n : NewAccount) : Except LedgerError Account × Bank :=
  let id := b.nextAccount
  let b := { b with nextAccount := id + 1 }
  match b.checkBalance id n.balance with
  | .error e => (.error e, b)
  | .ok _ =>
      let a : Account := ⟨id, n.owner, n.balance, n.currency.code, b.clock⟩
      (.ok a, { b with accounts := b.accounts.insert id ⟨a, a, 0⟩ })

/-- **Sets the balance of an account.** There is no account in the answer if it does not exist, and
no answer while the statement waits for the row. -/
def updateAccount (b : Bank) (o : Owner) (account balance : Int) :
    Option (Except LedgerError (Option Account)) × Bank :=
  match b.acquire o account with
  | (.missing, b) => (some (.ok none), b)
  | (.waiting, b) => (none, b)
  | (.granted, b) =>
      match b.checkBalance account balance, b.accounts.get? account with
      | .error e, _ => (some (.error e), b.release account)
      | .ok _, none => (some (.ok none), b.release account)
      | .ok _, some row =>
          let a := { row.working with balance }
          (some (.ok (some a)),
            (b.modifyRow account fun r => { r with committed := a, working := a }).release account)

/-- **Deletes an account** that exists and that no committed or staged row names. There is no answer
while the statement waits for the row. -/
def deleteAccount (b : Bank) (o : Owner) (account : Int) :
    Option (Except LedgerError Bool) × Bank :=
  match b.acquire o account with
  | (.missing, b) => (some (.ok false), b)
  | (.waiting, b) => (none, b)
  | (.granted, b) =>
      match b.accounts.get? account with
      | none => (some (.ok false), b.release account)
      | some row =>
          if b.isReferenced account ∨ 0 < row.pins then
            (some (.error (.constraintViolation (.accountReferenced account))), b.release account)
          else
            (some (.ok true), { b with accounts := b.accounts.erase account }.release account)

end DoubleEntry.Bank
