import Troupe.Actor.Function
import Troupe.System.Basic

/-!
# Recipes

Small functions of one value, from which chains and actors are put together.  As an operation a recipe gets
its arguments as one list.
-/

namespace Troupe.Stock

inductive Recipe where
  | echo
  | undefined
  | display
  | kind
  | const (v : Value)
  | error (message : String)
  | panic (message : String)
  | add (n : Int64)
  | typed (signature : Signature)
deriving Repr

namespace Recipe

variable {ι : Type}

def sum (v : Value) (n : Int64) : Reply :=
  match Shape.int64? v with
  | none => .error "not an integer"
  | some i =>
    let total := i.toInt + n.toInt
    if -0x8000000000000000 ≤ total ∧ total < 0x8000000000000000 then .value (.int (Int64.ofInt total))
    else .error "overflow"

def converted (shapes : List Shape) (vs : List Value) (m : Memory ι) : Reply × Memory ι :=
  match (Signature.tuple shapes).check vs with
  | .error e => (.error e.message, m)
  | .ok xs =>
    let (r, m) := m.onHeap (·.newList xs)
    (.value (.list r), m)

def run : Recipe → Value → Memory ι → Reply × Memory ι
  | .echo, v, m => (.value v, m)
  | .undefined, _, m => (.returned .undefined, m)
  | .display, v, m => (.value (.string (m.heap.text v)), m)
  | .kind, v, m => (.value (.string v.kind.name), m)
  | .const w, _, m => (.value w, m)
  | .error message, _, m => (.error message, m)
  | .panic message, _, m => (.panicked message, m)
  | .add n, v, m => (sum v n, m)
  | .typed .raw, v, m => (.value v, m)
  | .typed (.tuple shapes), .list r, m => converted shapes (m.heap.items r) m
  | .typed (.tuple shapes), v, m => converted shapes [v] m

def apply (r : Recipe) (arguments : List Value) (m : Memory ι) : Reply × Memory ι :=
  let (list, m) := m.onHeap (·.newList arguments)
  r.run (.list list) m

end Recipe

end Troupe.Stock
