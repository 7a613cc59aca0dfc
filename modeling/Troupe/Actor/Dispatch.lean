/-!
# Dispatch queues

The queue of jobs of one actor.  A job reads or writes.  Jobs are admitted strictly in the order of their
submission: readers that follow each other run together, and a writer runs alone, so it waits until
every job admitted before it has finished, and every job behind it waits for it.
-/

namespace Troupe

inductive Access where
  /-- alongside other readers -/
  | reader
  /-- alone -/
  | writer
deriving DecidableEq, Repr

def Access.name : Access → String
  | .reader => "reader"
  | .writer => "writer"

@[ext] structure Job (α : Type) where
  access : Access
  work : α
deriving DecidableEq, Repr

@[ext] structure Dispatch (α : Type) where
  /-- the jobs that wait, in the order of submission -/
  queue : List (Job α)
  /-- the number of readers admitted and not yet finished -/
  readers : Nat
  /-- a writer is admitted and not yet finished -/
  writer : Bool
deriving Repr

namespace Dispatch

variable {α : Type}

def empty : Dispatch α := ⟨[], 0, false⟩

/-- Admits the jobs at the head of a queue, as long as the next one may run alongside those admitted
and not yet finished. -/
def admitFrom : List (Job α) → Nat → Bool → List (Job α) × Dispatch α
  | [], readers, writer => ([], ⟨[], readers, writer⟩)
  | job :: rest, readers, writer =>
    if writer then ([], ⟨job :: rest, readers, writer⟩)
    else
      match job.access with
      | .reader =>
        let (admitted, d) := admitFrom rest (readers + 1) false
        (job :: admitted, d)
      | .writer =>
        if readers = 0 then ([job], ⟨rest, 0, true⟩)
        else ([], ⟨job :: rest, readers, false⟩)

def advance (d : Dispatch α) : List (Job α) × Dispatch α := admitFrom d.queue d.readers d.writer

/-- Adds a job, and answers the jobs that may run now. -/
def submit (d : Dispatch α) (job : Job α) : List (Job α) × Dispatch α :=
  { d with queue := d.queue ++ [job] }.advance

def release (d : Dispatch α) : Access → Dispatch α
  | .reader => { d with readers := d.readers - 1 }
  | .writer => { d with writer := false }

/-- Records that an admitted job is finished, and answers the jobs that may run now. -/
def complete (d : Dispatch α) (access : Access) : List (Job α) × Dispatch α := (d.release access).advance

def queued (d : Dispatch α) : Nat := d.queue.length

def running (d : Dispatch α) : Nat := d.readers + d.writer.toNat

/-- Admission moves jobs from the head of the queue and loses none. -/
theorem admitFrom_append (queue : List (Job α)) (readers : Nat) (writer : Bool) :
    (admitFrom queue readers writer).1 ++ (admitFrom queue readers writer).2.queue = queue := by
  fun_induction admitFrom queue readers writer <;> simp_all

end Dispatch

end Troupe
