import Troupe.Actor.Basic
import Troupe.Scheduler
import Troupe.Text.Printable

/-!
# Systems

Actors, groups and promises over one scheduler and one heap.  Nothing runs when a message is sent or a
promise is settled: what is to run becomes a task of the scheduler, and `System.perform` runs one task.

A group sends a message on to one of its members, named by the part of the path before the first slash,
and wraps the answer in a map that tells where it came from.

A factory builds an actor from a configuration, and a registry finds factories by their names.
-/

namespace Troupe

/-- What tasks share: the heap, and a journal in which observers write. -/
@[ext] structure Memory (ι : Type) where
  heap : Heap
  /-- the entries written so far, the oldest first -/
  journal : List ι

namespace Memory

variable {ι : Type}

def empty : Memory ι := ⟨.empty, []⟩

def note (m : Memory ι) (entry : ι) : Memory ι := { m with journal := m.journal ++ [entry] }

def onHeap {α : Type} (m : Memory ι) (f : Heap → α × Heap) : α × Memory ι :=
  let (x, heap) := f m.heap
  (x, { m with heap })

end Memory

inductive Mailbox where
  | actor (index : Nat)
  | group (index : Nat)
  /-- a function that answers at once -/
  | responder (index : Nat)
deriving DecidableEq, Inhabited, Repr

def Mailbox.index : Mailbox → Nat
  | .actor i | .group i | .responder i => i

structure Message where
  mailbox : Mailbox
  /-- the name of an operation, or a path to one -/
  path : String
  arguments : List Value
deriving Repr

/-- What a step of a chain goes on with. -/
inductive Continuation (ι : Type) where
  /-- the result of a promise -/
  | promise (p : PromiseRef)
  /-- the result of a new promise, which the step makes known -/
  | fresh (tell : PromiseRef → Memory ι → Memory ι)
  /-- an outcome that is known already -/
  | outcome (o : Outcome Value)
  /-- the answer to a message -/
  | message (m : Message)
  /-- nothing: the step panicked -/
  | panicked (message : String)

inductive Observer (ι : Type) where
  /-- the target takes the result over -/
  | adopt (target : PromiseRef)
  /-- a value goes through a function, whose outcome the target takes; an error passes to the target -/
  | step (target : PromiseRef) (f : Value → Memory ι → Reply × Memory ι)
  /-- a value leads to another promise, which the target adopts; an error passes to the target -/
  | follow (target : PromiseRef) (f : Value → Memory ι → Continuation ι × Memory ι)
  /-- the target takes the result wrapped as the answer of a group's member -/
  | wrap (target : PromiseRef) (member path : String)
  | watch (f : Settled → Memory ι → Memory ι)

/-- Work without a result: a change of the memory, and errands to schedule after it. -/
inductive Errand (ι : Type) where
  | mk (effect : Memory ι → Memory ι) (next : List (Errand ι))

inductive Task (ι σ : Type) where
  | errand (e : Errand ι)
  /-- an observer gets its result -/
  | react (observer : Observer ι) (result : Settled)
  /-- an admitted call runs on its actor -/
  | job (actor : Nat) (job : Job (Call (Memory ι) σ))
  /-- a promise is settled later, and whether it took the outcome is told -/
  | settle (promise : PromiseRef) (outcome : Outcome Value) (tell : Bool → Memory ι → Memory ι)

structure System (ι σ : Type) where
  memory : Memory ι
  promises : Array (Promise (Observer ι))
  actors : Array (Actor (Memory ι) σ)
  groups : Array (Entries Mailbox)
  /-- the functions that answer at once -/
  responders : Array (String → List Value → Memory ι → Outcome Value × Memory ι)
  scheduler : Scheduler (Task ι σ)
  clock : Nat

namespace System

variable {ι σ : Type}

def ofWorkers (n : Nat) : System ι σ := ⟨.empty, #[], #[], #[], #[], .ofWorkers n, 0⟩

def schedule (sys : System ι σ) (task : Task ι σ) : System ι σ :=
  { sys with scheduler := sys.scheduler.schedule task }

/-- Adds a task to be run no earlier than some time from now. -/
def scheduleIn (sys : System ι σ) (delay : Nat) (task : Task ι σ) : System ι σ :=
  { sys with scheduler := sys.scheduler.scheduleAt (sys.clock + delay) task }

def onMemory (sys : System ι σ) (f : Memory ι → Memory ι) : System ι σ :=
  { sys with memory := f sys.memory }

/-! ## Promises -/

def newPromise (sys : System ι σ) : PromiseRef × System ι σ :=
  (⟨sys.promises.size⟩, { sys with promises := sys.promises.push .fresh })

def promise (sys : System ι σ) (p : PromiseRef) : Promise (Observer ι) :=
  sys.promises.getD p.index .fresh

/-- Settles a promise and schedules its observers; tells whether the promise took the outcome. -/
def settle (sys : System ι σ) (p : PromiseRef) (o : Outcome Value) : Bool × System ι σ :=
  let (observers, taken, after) := (sys.promise p).settle o.settled
  (taken, { sys with
    promises := sys.promises.setIfInBounds p.index after
    scheduler := sys.scheduler.scheduleAll (observers.map (.react · o.settled)) })

/-- Registers an observer, or schedules it if the promise is settled already. -/
def observe (sys : System ι σ) (p : PromiseRef) (k : Observer ι) : System ι σ :=
  match (sys.promise p).observe k with
  | (some r, _) => sys.schedule (.react k r)
  | (none, after) => { sys with promises := sys.promises.setIfInBounds p.index after }

/-- Lets a promise take over the result of another; tells whether it was free to do so. -/
def adopt (sys : System ι σ) (p other : PromiseRef) : Bool × System ι σ :=
  if (sys.promise p).isSettled then (false, sys) else (true, sys.observe other (.adopt p))

def settledPromise (sys : System ι σ) (o : Outcome Value) : PromiseRef × System ι σ :=
  let (p, sys) := sys.newPromise
  (p, (sys.settle p o).2)

/-- Makes a promise for what a function makes of the value of another. -/
def thenStep (sys : System ι σ) (p : PromiseRef) (f : Value → Memory ι → Reply × Memory ι) :
    PromiseRef × System ι σ :=
  let (next, sys) := sys.newPromise
  (next, sys.observe p (.step next f))

def thenFollow (sys : System ι σ) (p : PromiseRef) (f : Value → Memory ι → Continuation ι × Memory ι) :
    PromiseRef × System ι σ :=
  let (next, sys) := sys.newPromise
  (next, sys.observe p (.follow next f))

/-! ## Actors, groups and responders -/

def newActor (sys : System ι σ) (a : Actor (Memory ι) σ) : Mailbox × System ι σ :=
  (.actor sys.actors.size, { sys with actors := sys.actors.push a })

def onActor (sys : System ι σ) (i : Nat) (f : Actor (Memory ι) σ → Actor (Memory ι) σ) : System ι σ :=
  { sys with actors := sys.actors.modify i f }

def newGroup (sys : System ι σ) : Mailbox × System ι σ :=
  (.group sys.groups.size, { sys with groups := sys.groups.push [] })

def members (sys : System ι σ) (i : Nat) : Entries Mailbox := sys.groups.getD i []

def onGroup (sys : System ι σ) (i : Nat) (f : Entries Mailbox → Entries Mailbox) : System ι σ :=
  { sys with groups := sys.groups.modify i f }

/-- Adds a function that answers messages at once. -/
def newResponder (sys : System ι σ)
    (f : String → List Value → Memory ι → Outcome Value × Memory ι) : Mailbox × System ι σ :=
  (.responder sys.responders.size, { sys with responders := sys.responders.push f })

end System

/-! ## Factories -/

/-- Builds a mailbox from the entries of a configuration, or says why it cannot. -/
abbrev Factory (ι σ : Type) := MapRef → System ι σ → Except String Mailbox × System ι σ

abbrev Registry (ι σ : Type) := Entries (Factory ι σ)

namespace Registry

variable {ι σ : Type}

def instantiate (r : Registry ι σ) (name : String) (configuration : MapRef) (sys : System ι σ) :
    Except String Mailbox × System ι σ :=
  match Entries.find? name r with
  | some factory => factory configuration sys
  | none => (.error (DispatchError.unknownFactory name).message, sys)

def describe (r : Registry ι σ) : String :=
  "FactoryRegistry \x7b factories: " ++ Text.visibleList (Entries.keys r) ++ " \x7d"

end Registry

end Troupe
