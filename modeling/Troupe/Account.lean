import Troupe.Actor.Basic
import Troupe.Binary64.Round

/-!
# Accounts

An actor that holds funds.  Amounts must be positive, and no more can be taken than is there.  The functions
on funds are pure; the operations only unpack their arguments and answer with the new funds.
-/

namespace Troupe

inductive AccountError where
  /-- the amount is zero or negative -/
  | invalidAmount
  | notEnoughFunds
deriving DecidableEq, Repr

def AccountError.message : AccountError → String
  | .invalidAmount => "invalid amount"
  | .notEnoughFunds => "not enough funds"

namespace Account

def factoryName : String := "account"

def initialFunds : String := "initial_funds"

def checkAmount (amount : Binary64) : Except AccountError Binary64 :=
  if amount.atMost (.zero false) then .error .invalidAmount else .ok amount

def deposit (funds amount : Binary64) : Except AccountError Binary64 := do
  let amount ← checkAmount amount
  pure (funds.add amount)

def debit (funds amount : Binary64) : Except AccountError Binary64 := do
  let amount ← checkAmount amount
  if funds.less amount then throw .notEnoughFunds
  pure (funds.sub amount)

/-- A writer that moves one amount and answers with the funds after; refused amounts change nothing. -/
def moving {μ : Type} (move : Binary64 → Binary64 → Except AccountError Binary64) :
    Operation μ Binary64 :=
  .typedWriter [.float] fun (amount, _) funds m ↦
    match move funds amount with
    | .ok after => (.value (.float after), after, m)
    | .error e => (.error e.message, funds, m)

def operations {μ : Type} : List (String × Operation μ Binary64) :=
  [("deposit", moving deposit), ("debit", moving debit),
    ("balance", .typedReader [] fun _ funds m ↦ (.value (.float funds), m))]

/-- The funds that a configuration starts with, zero if it does not say. -/
def funds (configuration : Entries Value) : Except ValueError Binary64 :=
  if Entries.contains initialFunds configuration then configuration.get initialFunds .float
  else .ok (.zero false)

end Account

end Troupe
