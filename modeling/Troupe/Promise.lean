import Troupe.Value.Heap
import Troupe.Outcome

/-!
# Promises

A promise is settled at most once, with a value or an error.  Until then it collects observers; when it is
settled they are handed out in the order of their registration, each to run with the result, and an
observer that comes later is handed out at once.

Handing out is all that happens here: the functions answer what is to be scheduled, and run nothing.
-/

namespace Troupe

/-- What a promise is settled with: a value, or the message of an error. -/
abbrev Settled := Except String Value

/-- The result of an outcome that is final; a value that is not there counts as null. -/
def Outcome.settled (o : Outcome Value) : Settled := o.observe .null

def Settled.outcome (r : Settled) : Outcome Value := Outcome.ofExcept r

/-- A promise, with observers of type `κ`. -/
inductive Promise (κ : Type) where
  /-- not settled; the observers in the order of their registration -/
  | pending (observers : List κ)
  | settled (result : Settled)

namespace Promise

variable {κ : Type}

def fresh : Promise κ := .pending []

def result? : Promise κ → Option Settled
  | .pending _ => none
  | .settled r => some r

def isSettled (p : Promise κ) : Bool := p.result?.isSome

def outcome : Promise κ → Outcome Value
  | .pending _ => .undefined
  | .settled r => r.outcome

/-- Settles a promise, unless it is settled already: the observers to run with the result, whether the
promise took it, and the promise after. -/
def settle (r : Settled) : Promise κ → List κ × Bool × Promise κ
  | .pending observers => (observers, true, .settled r)
  | .settled first => ([], false, .settled first)

/-- Registers an observer: the result it is to run with, if there is one already, and the promise after. -/
def observe (k : κ) : Promise κ → Option Settled × Promise κ
  | .pending observers => (none, .pending (observers ++ [k]))
  | .settled r => (some r, .settled r)

/-- What is reported to those who wait for a promise that went away without being settled. -/
def abandoned : Settled := .error "promise dropped"

@[simp] theorem result?_fresh : (fresh : Promise κ).result? = none := rfl

end Promise

@[ext] structure PromiseRef where
  /-- how many promises were made before -/
  index : Nat
deriving DecidableEq, Inhabited, Repr

end Troupe
