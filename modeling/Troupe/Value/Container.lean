import Troupe.Value.Shape

/-!
# Lists and maps

The operations on shared lists and maps, and the cursors that walk them while they change.  A list cursor
counts positions; a map cursor remembers the last key it produced, so that it goes on correctly after any
insertion and removal.
-/

namespace Troupe

namespace Heap

/-! ## Lists -/

def append (h : Heap) (r : ListRef) (v : Value) : Heap := h.setItems r (h.items r ++ [v])

/-- Replaces the element at a position, if there is one. -/
def replace (h : Heap) (r : ListRef) (position : Int64) (v : Value) : Bool × Heap :=
  match Sequence.set? position v (h.items r) with
  | some xs => (true, h.setItems r xs)
  | none => (false, h)

/-- Inserts an element before a position, if there is one. -/
def insertBefore (h : Heap) (r : ListRef) (position : Int64) (v : Value) : Bool × Heap :=
  match Sequence.insert? position v (h.items r) with
  | some xs => (true, h.setItems r xs)
  | none => (false, h)

/-- Cuts a list, or pads it with nulls, to a size. -/
def resize (h : Heap) (r : ListRef) (size : Nat) : Heap :=
  h.setItems r (Sequence.resize .null size (h.items r))

/-! ## Maps -/

def put (h : Heap) (r : MapRef) (key : String) (v : Value) : Heap :=
  h.setEntries r (Entries.insert key v (h.entries r))

/-- Removes the value under a key and tells whether there was one. -/
def remove (h : Heap) (r : MapRef) (key : String) : Bool × Heap :=
  if Entries.contains key (h.entries r) then (true, h.setEntries r (Entries.erase key (h.entries r)))
  else (false, h)

end Heap

/-! ## Cursors -/

/-- A walk over a list that may change meanwhile. -/
structure ListCursor where
  list : ListRef
  /-- the number of elements produced so far -/
  position : Nat
deriving DecidableEq, Repr

/-- The next element, read now.  At the end the cursor stays where it is. -/
def ListCursor.next (c : ListCursor) (h : Heap) : Option Value × ListCursor :=
  match (h.items c.list)[c.position]? with
  | some v => (some v, { c with position := c.position + 1 })
  | none => (none, c)

/-- A walk over a map that may change meanwhile. -/
structure MapCursor where
  map : MapRef
  /-- the last key produced so far -/
  last : Option String
deriving DecidableEq, Repr

/-- The next entry, read now: the first one after the last key produced. -/
def MapCursor.next (c : MapCursor) (h : Heap) : Option (String × Value) × MapCursor :=
  match Entries.after? c.last (h.entries c.map) with
  | some (k, v) => (some (k, v), { c with last := some k })
  | none => (none, c)

end Troupe
