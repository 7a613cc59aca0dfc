import Troupe.Actor.Function
import Troupe.Data.Entries
import Troupe.Promise
import Troupe.Text.Hex
import Troupe.Text.Printable

/-!
# Actors

An actor owns a state and the operations on it.  A message to a known operation becomes a job of the
actor's dispatch queue; the operation is looked up when the message is sent, so a later definition under
the same name does not change what an earlier message runs.
-/

namespace Troupe

structure Call (μ σ : Type) where
  operation : Operation μ σ
  arguments : List Value
  reply : PromiseRef

structure Actor (μ σ : Type) where
  operations : Entries (Operation μ σ)
  state : σ
  dispatch : Dispatch (Call μ σ)

namespace Actor

variable {μ σ : Type}

def ofState (operations : List (String × Operation μ σ)) (state : σ) : Actor μ σ :=
  ⟨Entries.ofList operations, state, .empty⟩

def define (a : Actor μ σ) (name : String) (operation : Operation μ σ) : Actor μ σ :=
  { a with operations := Entries.insert name operation a.operations }

def access? (a : Actor μ σ) (name : String) : Option Access :=
  (Entries.find? name a.operations).map Operation.access

/-- Sends a message: the jobs that may run now and the actor after, or nothing if there is no such
operation. -/
def send? (a : Actor μ σ) (name : String) (arguments : List Value) (reply : PromiseRef) :
    Option (List (Job (Call μ σ)) × Actor μ σ) :=
  (Entries.find? name a.operations).map fun operation ↦
    let (admitted, dispatch) := a.dispatch.submit ⟨operation.access, operation, arguments, reply⟩
    (admitted, { a with dispatch })

/-- Runs a call on the state: its outcome, the actor after, and the shared rest after. -/
def perform (a : Actor μ σ) (call : Call μ σ) (m : μ) : Outcome Value × Actor μ σ × μ :=
  let (reply, state, m) := call.operation.run call.arguments a.state m
  (reply.caught .function, { a with state }, m)

/-- Records that a job is finished: the jobs that may run now and the actor after. -/
def complete (a : Actor μ σ) (access : Access) : List (Job (Call μ σ)) × Actor μ σ :=
  let (admitted, dispatch) := a.dispatch.complete access
  (admitted, { a with dispatch })

end Actor

/-- The identity of an actor, 32 hexadecimal digits. -/
structure ActorId where
  value : UInt64 × UInt64
deriving DecidableEq, Repr

namespace ActorId

def nil : ActorId := ⟨0, 0⟩

def digits (id : ActorId) : String := Hex.ofWord id.value.1 ++ Hex.ofWord id.value.2

def text (id : ActorId) : String := "actor-" ++ id.digits

def grouped (id : ActorId) : String :=
  let part (start size : Nat) := String.ofList ((id.digits.toList.drop start).take size)
  "-".intercalate [part 0 8, part 8 4, part 12 4, part 16 4, part 20 12]

end ActorId

/-- The diagnostic text of an actor with functions only: its identity and the names of its operations. -/
def Actor.describe {μ σ : Type} (a : Actor μ σ) (id : ActorId) : String :=
  "StatelessActor \x7b id: ActorId \x7b id: " ++ id.grouped ++ " \x7d, operations: "
    ++ Text.visibleList (Entries.keys a.operations) ++ " \x7d"

end Troupe
