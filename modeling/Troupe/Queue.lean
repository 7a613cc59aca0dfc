import Troupe.Value.Container

/-!
# Closable queues

A queue between producers and consumers.  It can be closed once; what was accepted before is still handed
out, and nothing is accepted after.  A consumer takes the oldest value, or moves everything to a list.
-/

namespace Troupe

@[ext] structure Queue (α : Type) where
  /-- the values accepted and not yet handed out, the oldest first -/
  items : List α
  closed : Bool
deriving Repr

inductive Popped (α : Type) where
  | item (x : α)
  /-- the news that nothing will come any more -/
  | ended
  | waits
deriving DecidableEq, Repr

namespace Queue

variable {α : Type}

def empty : Queue α := ⟨[], false⟩

/-- Offers a value, which is accepted unless the queue is closed. -/
def push (q : Queue α) (x : α) : Bool × Queue α :=
  if q.closed then (false, q) else (true, { q with items := q.items ++ [x] })

def pop (q : Queue α) : Popped α × Queue α :=
  match q.items with
  | x :: rest => (.item x, { q with items := rest })
  | [] => (if q.closed then .ended else .waits, q)

def drain (q : Queue α) : List α × Queue α := (q.items, { q with items := [] })

/-- Moves all values to the end of a list, in order, and tells whether there were any. -/
def drainInto (q : Queue Value) (list : ListRef) (h : Heap) : Bool × Queue Value × Heap :=
  if q.items = [] then (false, q, h)
  else
    let (values, q) := q.drain
    (true, q, values.foldl (fun h v ↦ h.append list v) h)

def count (q : Queue α) : Nat := q.items.length

def close (q : Queue α) : Queue α := { q with closed := true }

@[simp] theorem closed_close (q : Queue α) : q.close.closed = true := rfl

@[simp] theorem push_of_closed {q : Queue α} (h : q.closed = true) (x : α) :
    q.push x = (false, q) := by
  simp [push, h]

end Queue

end Troupe
