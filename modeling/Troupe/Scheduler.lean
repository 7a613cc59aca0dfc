/-!
# Schedulers

A fixed number of workers take work from two queues.  Ready work is taken in the order in which it was
scheduled.  Delayed work waits for its deadline; once due it is taken before ready work, the earliest
deadline first and equal deadlines in the order of scheduling.

The clock is not part of a scheduler: `take?` is told the time.
-/

namespace Troupe

@[ext] structure Delayed (α : Type) where
  /-- the first instant at which the work may be taken -/
  deadline : Nat
  /-- how many delayed works were scheduled before -/
  sequence : Nat
  work : α
deriving DecidableEq, Repr

/-- The order in which delayed works are taken: by deadline, then in the order of scheduling. -/
def Delayed.before {α : Type} (a b : Delayed α) : Bool :=
  a.deadline < b.deadline || (a.deadline == b.deadline && a.sequence < b.sequence)

@[ext] structure Scheduler (α : Type) where
  workers : Nat
  /-- the work that may be taken now, the oldest first -/
  ready : List α
  /-- the work that waits for its deadline, in the order in which it will be taken -/
  delayed : List (Delayed α)
  /-- the number of delayed works scheduled so far -/
  nextSequence : Nat
  /-- the number of works taken and not yet finished -/
  active : Nat
  stopping : Bool
deriving Repr

namespace Scheduler

variable {α : Type}

/-- An idle pool of workers; there is always at least one. -/
def ofWorkers (n : Nat) : Scheduler α := ⟨max n 1, [], [], 0, 0, false⟩

def schedule (s : Scheduler α) (work : α) : Scheduler α := { s with ready := s.ready ++ [work] }

def scheduleAll (s : Scheduler α) (works : List α) : Scheduler α :=
  { s with ready := s.ready ++ works }

def insertDelayed (d : Delayed α) : List (Delayed α) → List (Delayed α)
  | [] => [d]
  | e :: rest => if d.before e then d :: e :: rest else e :: insertDelayed d rest

def scheduleAt (s : Scheduler α) (deadline : Nat) (work : α) : Scheduler α :=
  { s with
    delayed := insertDelayed ⟨deadline, s.nextSequence, work⟩ s.delayed
    nextSequence := s.nextSequence + 1 }

def takeReady? (s : Scheduler α) : Option (α × Scheduler α) :=
  match s.ready with
  | [] => none
  | work :: rest => some (work, { s with ready := rest, active := s.active + 1 })

/-- Takes the next work for a worker that asks at the instant `now`. -/
def take? (now : Nat) (s : Scheduler α) : Option (α × Scheduler α) :=
  match s.delayed with
  | [] => s.takeReady?
  | d :: rest =>
    if d.deadline ≤ now then some (d.work, { s with delayed := rest, active := s.active + 1 })
    else s.takeReady?

def finish (s : Scheduler α) : Scheduler α := { s with active := s.active - 1 }

def pending (s : Scheduler α) : Nat := s.ready.length + s.delayed.length + s.active

def nextDeadline? (s : Scheduler α) : Option Nat := s.delayed.head?.map Delayed.deadline

/-- Starts to shut down: all work that still waits for its deadline is discarded, and handed back. -/
def stop (s : Scheduler α) : List (Delayed α) × Scheduler α :=
  (s.delayed, { s with delayed := [], stopping := true })

def text (s : Scheduler α) : String :=
  "Scheduler \x7b workers: " ++ toString s.workers ++ ", pending: " ++ toString s.pending ++ " \x7d"

end Scheduler

end Troupe
