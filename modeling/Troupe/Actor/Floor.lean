import Troupe.Actor.Dispatch
import Troupe.Scheduler

/-!
# Floors

A pool of workers that runs the jobs of one dispatch queue.  A job ends when somebody says so; it may be said
before the job has begun, and then the job ends as soon as a worker takes it.
-/

namespace Troupe

structure Floor where
  dispatch : Dispatch String
  pool : Scheduler (Job String)
  busy : List (Job String)
  /-- the jobs that are to end as soon as they begin -/
  ended : List String

namespace Floor

def ofWorkers (n : Nat) : Floor := ⟨.empty, .ofWorkers n, [], []⟩

def complete (f : Floor) (job : Job String) : Floor :=
  let (admitted, dispatch) := f.dispatch.complete job.access
  { f with dispatch, pool := (f.pool.scheduleAll admitted).finish }

/-- Lets free workers take jobs, at most `limit` of them. -/
def serve : Nat → Floor → Floor
  | 0, f => f
  | limit + 1, f =>
    if f.pool.workers ≤ f.pool.active then f
    else
      match f.pool.take? 0 with
      | none => f
      | some (job, pool) =>
        if f.ended.contains job.work then serve limit ({ f with pool }.complete job)
        else serve limit { f with pool, busy := job :: f.busy }

/-- Lets free workers take jobs until no job or no worker is left. -/
def settle (f : Floor) : Floor := f.serve (f.pool.ready.length + f.dispatch.queued)

def submit (f : Floor) (job : Job String) : Floor :=
  let (admitted, dispatch) := f.dispatch.submit job
  { f with dispatch, pool := f.pool.scheduleAll admitted }.settle

def finish (f : Floor) (id : String) : Floor :=
  match f.busy.find? (·.work == id) with
  | some job => ({ f with busy := f.busy.filter (·.work != id) }.complete job).settle
  | none => { f with ended := id :: f.ended }.settle

end Floor

end Troupe
