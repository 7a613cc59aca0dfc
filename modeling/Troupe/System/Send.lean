import Troupe.System.Basic
import Troupe.System.Path
import Troupe.Value.Container

/-!
# Sending messages

A message to an actor becomes a call; a message to a group goes on to a member with the rest of its
path, so the number of groups on its way is at most the number of slashes in its path, however the groups
contain each other.
-/

namespace Troupe

namespace Heap

/-- The text under the key `source`, where an answer of a group tells its way. -/
def source? (h : Heap) (m : MapRef) : Option String :=
  (Entries.find? "source" (h.entries m)).bind Value.asString?

/-- A new map that tells where an answer came from. -/
def wrapped (h : Heap) (source : String) (value error : Value) : Value × Heap :=
  let (r, h) := h.newMap [("error", error), ("source", .string source), ("value", value)]
  (.map r, h)

/-- A result as the answer of a group's member: an answer that tells its way already gets the member's
name in front of that, in place, and any other result is wrapped under the path of the message. -/
def groupAnswer (h : Heap) (member path : String) : Settled → Value × Heap
  | .error message => h.wrapped path .null (.string message)
  | .ok (.map m) =>
    match h.source? m with
    | some source => (.map m, h.put m "source" (.string (member ++ "/" ++ source)))
    | none => h.wrapped path (.map m) .null
  | .ok v => h.wrapped path v .null

end Heap

namespace System

variable {ι σ : Type}

def refused (sys : System ι σ) (e : DispatchError) : PromiseRef × System ι σ :=
  sys.settledPromise (.error e.message)

def launch (sys : System ι σ) (i : Nat) (admitted : List (Job (Call (Memory ι) σ))) : System ι σ :=
  { sys with scheduler := sys.scheduler.scheduleAll (admitted.map (.job i)) }

def call (sys : System ι σ) (i : Nat) (name : String) (arguments : List Value) :
    PromiseRef × System ι σ :=
  let (p, sys) := sys.newPromise
  match sys.actors[i]?.bind (·.send? name arguments p) with
  | some (admitted, a) =>
    (p, { sys with actors := sys.actors.setIfInBounds i a }.launch i admitted)
  | none => (p, (sys.settle p (.error (DispatchError.unknownOperation name).message)).2)

def respond (sys : System ι σ) (i : Nat) (name : String) (arguments : List Value) :
    PromiseRef × System ι σ :=
  match sys.responders[i]? with
  | some f =>
    let (o, memory) := f name arguments sys.memory
    { sys with memory }.settledPromise o
  | none => sys.newPromise

/-- Sends a message along a path: the promise of the answer. -/
def sendAlong (sys : System ι σ) (mailbox : Mailbox) (path : List Char) (arguments : List Value) :
    PromiseRef × System ι σ :=
  match mailbox with
  | .actor i => sys.call i (String.ofList path) arguments
  | .responder i => sys.respond i (String.ofList path) arguments
  | .group i =>
    match _found : Path.split? path with
    | none => sys.refused (.invalidPath (String.ofList path))
    | some (member, rest) =>
      match Entries.find? (String.ofList member) (sys.members i) with
      | none => sys.refused (.unknownMember (String.ofList member))
      | some next =>
        let (p, sys) := sys.newPromise
        let (inner, sys) := sendAlong sys next rest arguments
        (p, sys.observe inner (.wrap p (String.ofList member) (String.ofList path)))
termination_by path.length
decreasing_by exact Path.length_lt_of_split? ‹_›

def send (sys : System ι σ) (m : Message) : PromiseRef × System ι σ :=
  sys.sendAlong m.mailbox m.path.toList m.arguments

end System

end Troupe
