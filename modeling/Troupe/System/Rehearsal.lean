import Troupe.System.Run

/-!
# Rehearsals

A system run by hand.  Its workers can be held back, so that work piles up, and released again.  Time goes on
only while somebody waits for delayed work, and nobody waits for work that is delayed too far.
-/

namespace Troupe

structure Rehearsal (ι σ : Type) where
  system : System ι σ
  /-- all workers are held back -/
  held : Bool
  /-- the latest deadline that is waited for -/
  horizon : Nat

namespace Rehearsal

variable {ι σ : Type}

def ofWorkers (n : Nat) : Rehearsal ι σ := ⟨.ofWorkers n, false, 0⟩

/-- Delays from here on are not waited for. -/
def patience : Nat := 10000

/-- The most tasks that are run while waiting once. -/
def limit : Nat := 100000000

def onSystem (r : Rehearsal ι σ) (f : System ι σ → System ι σ) : Rehearsal ι σ :=
  { r with system := f r.system }

def passTo (r : Rehearsal ι σ) (instant : Nat) : Rehearsal ι σ :=
  r.onSystem fun sys ↦ { sys with clock := max sys.clock instant }

/-- Lets the free workers run everything that may be run now. -/
def rest (r : Rehearsal ι σ) : Rehearsal ι σ :=
  if r.held then r else r.onSystem fun sys ↦ sys.run sys.clock limit

/-- Waits until all delayed work within the horizon is due, while the free workers run. -/
def wait (r : Rehearsal ι σ) : Rehearsal ι σ :=
  if r.held then r.passTo r.horizon else r.onSystem (·.run r.horizon limit)

def scheduleIn (r : Rehearsal ι σ) (delay : Nat) (task : Task ι σ) : Rehearsal ι σ :=
  let horizon := if delay < patience then max r.horizon (r.system.clock + delay) else r.horizon
  { r.onSystem (·.scheduleIn delay task) with horizon }

/-- Gives every worker something to hold on to. -/
def hold (r : Rehearsal ι σ) : Rehearsal ι σ :=
  { r.onSystem fun sys ↦ { sys with
      scheduler := { sys.scheduler with active := sys.scheduler.active + sys.scheduler.workers } } with
    held := true }

/-- Waits until all delayed work within the horizon is due, frees the workers, and lets them run. -/
def release (r : Rehearsal ι σ) : Rehearsal ι σ :=
  let busy := if r.held then r.system.scheduler.workers else 0
  { (r.passTo r.horizon).onSystem fun sys ↦ { sys with
      scheduler := { sys.scheduler with active := sys.scheduler.active - busy } } with
    held := false }.rest

/-- Shuts the scheduler down, once the workers are free: work that is still delayed is discarded. -/
def stop (r : Rehearsal ι σ) : Rehearsal ι σ :=
  (if r.held then r.release else r).onSystem fun sys ↦ { sys with scheduler := sys.scheduler.stop.2 }

end Rehearsal

end Troupe
