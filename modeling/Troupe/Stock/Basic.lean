import Troupe.Actor.Function
import Troupe.System.Basic
import Troupe.Value.Container

/-!
# Counters, logs and records

The operations of three sorts of actors: one holds a signed integer and refuses results that do not fit, one
a sequence of values, of which it gives copies, and one a map.  A record answers `all` with the map itself,
which the receiver then shares, and `copy` with an independent one.
-/

namespace Troupe.Stock

namespace Counter

def checked (i : Int) : Except String Int64 :=
  if -0x8000000000000000 ≤ i ∧ i < 0x8000000000000000 then .ok (Int64.ofInt i) else .error "overflow"

def plus (n amount : Int64) : Except String Int64 := checked (n.toInt + amount.toInt)

/-- The difference, if the amount is not larger than the count and the difference fits. -/
def minus (n amount : Int64) : Except String Int64 :=
  if n < amount then .error "not enough funds" else checked (n.toInt - amount.toInt)

/-- Stores a new count and answers with it, or refuses. -/
def storing {μ : Type} (f : Int64 → Int64 → Except String Int64) : Operation μ Int64 :=
  .typedWriter [.int64] fun (amount, _) n m ↦
    match f n amount with
    | .ok after => (.value (.int after), after, m)
    | .error message => (.error message, n, m)

/-- The count plus an amount, one if it is not given. -/
def shifted {μ : Type} (amount : Option Int64) (n : Int64) (m : μ) : Reply × μ :=
  match plus n (amount.getD 1) with
  | .ok sum => (.value (.int sum), m)
  | .error message => (.error message, m)

def operations {μ : Type} : List (String × Operation μ Int64) :=
  [("add", storing plus), ("debit", storing minus),
    ("explode", .typedWriter [] fun _ _ m ↦ (.panicked "invariant broken", -1, m)),
    ("get", .typedReader [] fun _ n m ↦ (.value (.int n), m)),
    ("plus", .typedReader [.option .int64] fun (amount, _) n m ↦ shifted amount n m)]

end Counter

namespace Log

variable {ι : Type}

def items (vs : List Value) (m : Memory ι) : Reply × Memory ι :=
  let (r, m) := m.onHeap (·.newList vs)
  (.value (.list r), m)

def operations : List (String × Operation (Memory ι) (List Value)) :=
  [("push", .typedWriter [.value] fun (v, _) vs m ↦ (.value .null, vs.concat v, m)),
    ("extend", .writer fun more vs m ↦ (.value (.ofNat (vs ++ more).length), vs ++ more, m)),
    ("items", .typedReader [] fun _ vs m ↦ items vs m),
    ("len", .typedReader [] fun _ vs m ↦ (.value (.ofNat vs.length), m))]

end Log

namespace Record

variable {ι : Type}

/-- Puts a value under a key and answers with the one held there before. -/
def put (r : MapRef) (key : String) (v : Value) (m : Memory ι) : Reply × Memory ι :=
  let before := (Entries.find? key (m.heap.entries r)).getD .null
  (.value before, { m with heap := m.heap.put r key v })

/-- Removes a key and tells whether it was there. -/
def remove (r : MapRef) (key : String) (m : Memory ι) : Reply × Memory ι :=
  let (found, m) := m.onHeap (·.remove r key)
  (.value (.bool found), m)

def find (r : MapRef) (key : String) (m : Memory ι) : Reply :=
  match (m.heap.entries r).get key .value with
  | .ok v => .value v
  | .error e => .error e.message

def copy (r : MapRef) (m : Memory ι) : Reply × Memory ι :=
  let (v, m) := m.onHeap (·.deepCopy (.map r))
  (.value v, m)

def operations : List (String × Operation (Memory ι) MapRef) :=
  [("set", .typedWriter [.string, .value] fun (key, v, _) r m ↦
      let (reply, m) := put r key v m
      (reply, r, m)),
    ("erase", .typedWriter [.string] fun (key, _) r m ↦
      let (reply, m) := remove r key m
      (reply, r, m)),
    ("get", .typedReader [.string] fun (key, _) r m ↦ (find r key m, m)),
    ("all", .typedReader [] fun _ r m ↦ (.value (.map r), m)),
    ("copy", .typedReader [] fun _ r m ↦ copy r m)]

end Record

end Troupe.Stock
