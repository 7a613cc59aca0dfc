import Troupe.Account
import Troupe.Stock.Basic

/-!
# Stock actors

The ready-made actors, with one state type for all of them so that they can live in one system, and the
factories that build them from configurations.
-/

namespace Troupe.Stock

inductive Role where
  | counter | log | record | account | stateless
deriving DecidableEq, Repr

def Role.name : Role → String
  | .counter => "counter"
  | .log => "log"
  | .record => "kv"
  | .account => "account"
  | .stateless => "stateless"

def Role.ofName? (name : String) : Option Role :=
  [counter, log, record, account, stateless].find? fun r ↦ r.name == name

inductive Holding where
  | nothing
  | count (n : Int64)
  | list (vs : List Value)
  | map (r : MapRef)
  | funds (x : Binary64)
deriving DecidableEq, Repr

abbrev StockActor (ι : Type) := Actor (Memory ι) Holding

variable {ι : Type}

def counter (n : Int64) : StockActor ι :=
  .ofState (Counter.operations.map fun (name, o) ↦
    (name, o.within (fun | .count n => n | _ => 0) fun n _ ↦ .count n)) (.count n)

def log (vs : List Value) : StockActor ι :=
  .ofState (Log.operations.map fun (name, o) ↦
    (name, o.within (fun | .list vs => vs | _ => []) fun vs _ ↦ .list vs)) (.list vs)

def record (r : MapRef) : StockActor ι :=
  .ofState (Record.operations.map fun (name, o) ↦
    (name, o.within (fun | .map r => r | _ => r) fun r _ ↦ .map r)) (.map r)

def account (funds : Binary64) : StockActor ι :=
  .ofState (Account.operations.map fun (name, o) ↦
    (name, o.within (fun | .funds x => x | _ => .zero false) fun x _ ↦ .funds x)) (.funds funds)

def stateless : StockActor ι := .ofState [] .nothing

/-- An actor of a role whose state is taken from a value; a value that does not convert gives an empty
state. -/
def actor (role : Role) (state : Value) (m : Memory ι) : StockActor ι × Memory ι :=
  match role with
  | .counter => (counter ((Shape.int64? state).getD 0), m)
  | .log =>
    match state with
    | .list r => (log (m.heap.items r), m)
    | _ => (log [], m)
  | .record =>
    match state with
    | .map r => (record r, m)
    | _ =>
      let (r, m) := m.onHeap (·.newMap [])
      (record r, m)
  | .account => (account ((Shape.float? state).getD (.zero false)), m)
  | .stateless => (stateless, m)

/-! ## Factories -/

/-- A factory that reads the state of an actor from the entries of a configuration. -/
def factoryOf {α : Type} (read : Heap → MapRef → Except ValueError α)
    (build : α → StockActor ι) : Factory ι Holding := fun configuration sys ↦
  match read sys.memory.heap configuration with
  | .error e => (.error e.message, sys)
  | .ok x =>
    let (mailbox, sys) := sys.newActor (build x)
    (.ok mailbox, sys)

def accountFactory : Factory ι Holding := factoryOf (fun h r ↦ Account.funds (h.entries r)) account

def refusing (message : String) : Factory ι Holding := fun _ sys ↦ (.error message, sys)

/-- The factory of a role: a counter starts at `start`, a log with the list `items`, and a record on the
configuration itself. -/
def factory (name : String) : Factory ι Holding :=
  match Role.ofName? name with
  | some .counter => factoryOf (fun h r ↦ (h.entries r).get "start" .int64) counter
  | some .log => factoryOf (fun h r ↦ ((h.entries r).get "items" .list).map h.items) log
  | some .record => factoryOf (fun _ r ↦ .ok r) record
  | some .account => accountFactory
  | _ => refusing ("cannot build " ++ name)

end Troupe.Stock
