import Troupe.System.Send

/-!
# Running tasks

`System.perform` runs one task.  `System.work?` lets one worker take the next task and run it, and
`System.run` does that, in the order of the scheduler, until nothing is left that is ready or comes due.
-/

namespace Troupe.System

variable {ι σ : Type}

def continueWith (sys : System ι σ) (target : PromiseRef) : Continuation ι → System ι σ
  | .promise p => (sys.adopt target p).2
  | .fresh tell =>
    let (p, sys) := sys.newPromise
    ((sys.onMemory (tell p)).adopt target p).2
  | .outcome o =>
    let (p, sys) := sys.settledPromise o
    (sys.adopt target p).2
  | .message m =>
    let (p, sys) := sys.send m
    (sys.adopt target p).2
  | .panicked message =>
    (sys.settle target (.error (DispatchError.panicked .continuation message).message)).2

def react (sys : System ι σ) : Observer ι → Settled → System ι σ
  | .adopt target, r => (sys.settle target r.outcome).2
  | .step target _, .error e => (sys.settle target (.error e)).2
  | .step target f, .ok v =>
    let (reply, memory) := f v sys.memory
    ({ sys with memory }.settle target (reply.caught .continuation)).2
  | .follow target _, .error e => (sys.settle target (.error e)).2
  | .follow target f, .ok v =>
    let (continuation, memory) := f v sys.memory
    { sys with memory }.continueWith target continuation
  | .wrap target member path, r =>
    let (v, memory) := sys.memory.onHeap (·.groupAnswer member path r)
    ({ sys with memory }.settle target (.value v)).2
  | .watch f, r => sys.onMemory (f r)

/-- Runs an admitted call, settles its promise, and admits the jobs that waited for it. -/
def runJob (sys : System ι σ) (i : Nat) (job : Job (Call (Memory ι) σ)) : System ι σ :=
  match sys.actors[i]? with
  | none => sys
  | some a =>
    let (o, a, memory) := a.perform job.work sys.memory
    let (_, sys) :=
      { sys with memory, actors := sys.actors.setIfInBounds i a }.settle job.work.reply o
    let (admitted, a) := a.complete job.access
    { sys with actors := sys.actors.setIfInBounds i a }.launch i admitted

def perform (sys : System ι σ) : Task ι σ → System ι σ
  | .errand (.mk effect next) => next.foldl (fun sys e ↦ sys.schedule (.errand e)) (sys.onMemory effect)
  | .react observer r => sys.react observer r
  | .job i job => sys.runJob i job
  | .settle p o tell =>
    let (taken, sys) := sys.settle p o
    sys.onMemory (tell taken)

def finish (sys : System ι σ) : System ι σ := { sys with scheduler := sys.scheduler.finish }

/-- Lets one worker take the next task and run it to its end, if there is one. -/
def work? (sys : System ι σ) : Option (System ι σ) :=
  (sys.scheduler.take? sys.clock).map fun (task, scheduler) ↦
    ({ sys with scheduler }.perform task).finish

/-- Runs tasks, at most `limit` steps, until none is ready or comes due up to the instant `horizon`.  The
clock goes forward only when nothing else is to be done. -/
def run (horizon : Nat) : Nat → System ι σ → System ι σ
  | 0, sys => sys
  | limit + 1, sys =>
    match sys.work? with
    | some sys => run horizon limit sys
    | none =>
      match sys.scheduler.nextDeadline? with
      | none => sys
      | some deadline =>
        if deadline ≤ horizon then run horizon limit { sys with clock := max sys.clock deadline }
        else sys

end Troupe.System
