/-
# Amounts of money
-/
import Punter.Json.Codec

namespace Punter

/-- The currencies in which stakes are placed. -/
inductive Currency where
  | aud
  | usd
  | eur
  deriving DecidableEq, Repr

namespace Currency

/-- The code of a currency. -/
def code : Currency → String
  | aud => "AUD"
  | usd => "USD"
  | eur => "EUR"

/-- All currencies under their codes. -/
def all : List (String × Currency) := [aud, usd, eur].map fun c => (c.code, c)

/-- Currencies in JSON are their codes. -/
def codec {α : Type} [Scalar α] : Codec α Currency := .variants all none code

end Currency

/-- An amount in a currency. -/
structure Money (α : Type) where
  amount : α
  currency : Currency
  deriving DecidableEq, Repr

namespace Money

/-- Amounts in JSON. -/
def codec {α : Type} [Scalar α] : Codec α (Money α) :=
  .record "struct Money"
    (.cons (.required "amount" .scalar) <|
     .cons (.required "currency" Currency.codec) .nil)
    (fun (amount, currency, _) => ⟨amount, currency⟩)
    (fun m => (m.amount, m.currency, ()))

end Money

end Punter
