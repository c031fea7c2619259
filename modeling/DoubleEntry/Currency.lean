set_option autoImplicit false

/-! # Currencies

The three currencies an account can be kept in, and their codes. Codes are matched exactly.
-/

namespace DoubleEntry

/-- A supported currency. -/
inductive Currency where
  | usd
  | eur
  | cad
  deriving DecidableEq, Repr, Inhabited

namespace Currency

/-- The three-letter code. -/
def code : Currency → String
  | .usd => "USD"
  | .eur => "EUR"
  | .cad => "CAD"

/-- All currencies, in the order in which messages list them. -/
def all : List Currency := [.usd, .eur, .cad]

/-- The currency with the given code. -/
def ofCode? (s : String) : Option Currency := all.find? (fun c => c.code = s)

/-- What is told to someone who names a currency that is not supported. -/
def unsupportedMessage (s : String) : String := "unsupported currency '" ++ s ++ "'"

theorem mem_all (c : Currency) : c ∈ all := by cases c <;> decide

theorem code_injective {c d : Currency} (h : c.code = d.code) : c = d := by
  cases c <;> cases d <;> first | rfl | exact absurd h (by decide)

theorem ofCode?_code (c : Currency) : ofCode? c.code = some c := by cases c <;> decide

theorem ofCode?_eq_some_iff {s : String} {c : Currency} : ofCode? s = some c ↔ s = c.code := by
  constructor
  · intro h
    simpa [eq_comm] using List.find?_some h
  · rintro rfl
    exact ofCode?_code c

end Currency

end DoubleEntry
