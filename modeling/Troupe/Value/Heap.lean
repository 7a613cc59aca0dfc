import Troupe.Data.Text
import Troupe.Value.Sequence

/-!
# Values and the storage they share

A `Value` is a scalar or a handle on a list or a map.  Handles are shared: a list held by two values is one
list, and what is appended through one handle is seen through the other.  The contents live in a `Heap`,
which grows and changes but never forgets a handle.

`Heap.read` writes a value out as the data tree that it stands for now, and `Heap.alloc` stores a tree in
fresh lists and maps.  Everything that looks at a whole value, such as its text or its copy, is defined
through these two.
-/

namespace Troupe

@[ext] structure ListRef where
  /-- the place of the list's items in the heap -/
  index : Nat
deriving DecidableEq, Inhabited, Repr

@[ext] structure MapRef where
  /-- the place of the map's entries in the heap -/
  index : Nat
deriving DecidableEq, Inhabited, Repr

inductive Value where
  | null
  | bool (b : Bool)
  | int (i : Int64)
  | uint (u : UInt64)
  | float (x : Binary64)
  | string (s : String)
  /-- a shared list -/
  | list (ref : ListRef)
  /-- a shared map -/
  | map (ref : MapRef)
deriving DecidableEq, Inhabited, Repr

@[ext] structure Heap where
  lists : Array (List Value)
  /-- the entries of each map, in key order -/
  maps : Array (Entries Value)
deriving Inhabited

namespace Value

def kind : Value → Kind
  | .null => .null
  | .bool _ => .bool
  | .int _ => .int
  | .uint _ => .uint
  | .float _ => .float
  | .string _ => .string
  | .list _ => .list
  | .map _ => .map

/-- The integer in its preferred form: signed whenever it fits. -/
def ofUInt64 (u : UInt64) : Value :=
  if u.toNat < 0x8000000000000000 then .int (Int64.ofNat u.toNat) else .uint u

def ofNat (n : Nat) : Value := ofUInt64 (UInt64.ofNat n)

def asString? : Value → Option String
  | .string s => some s
  | _ => none

end Value

namespace Heap

def empty : Heap := ⟨#[], #[]⟩

def items (h : Heap) (r : ListRef) : List Value := h.lists.getD r.index []

def entries (h : Heap) (r : MapRef) : Entries Value := h.maps.getD r.index []

def setItems (h : Heap) (r : ListRef) (xs : List Value) : Heap :=
  { h with lists := h.lists.setIfInBounds r.index xs }

def setEntries (h : Heap) (r : MapRef) (es : Entries Value) : Heap :=
  { h with maps := h.maps.setIfInBounds r.index es }

def newList (h : Heap) (xs : List Value) : ListRef × Heap :=
  (⟨h.lists.size⟩, { h with lists := h.lists.push xs })

def newMap (h : Heap) (es : Entries Value) : MapRef × Heap :=
  (⟨h.maps.size⟩, { h with maps := h.maps.push es })

def size (h : Heap) : Nat := h.lists.size + h.maps.size

/-! ## Trees -/

/-- The tree of a value, as far as `fuel` containers down; deeper ones read as null. -/
def readAt (h : Heap) : Nat → Value → Data
  | _, .null => .null
  | _, .bool b => .bool b
  | _, .int i => .int i
  | _, .uint u => .uint u
  | _, .float x => .float x
  | _, .string s => .string s
  | 0, _ => .null
  | fuel + 1, .list r => .list ((h.items r).map (readAt h fuel))
  | fuel + 1, .map r => .map ((h.entries r).map fun e ↦ (e.1, readAt h fuel e.2))

/-- The tree that a value stands for.  No path that visits each list and map at most once is longer than
the heap, so a value that does not contain itself is read in full. -/
def read (h : Heap) (v : Value) : Data := h.readAt h.size v

mutual

def alloc : Data → Heap → Value × Heap
  | .null, h => (.null, h)
  | .bool b, h => (.bool b, h)
  | .int i, h => (.int i, h)
  | .uint u, h => (.uint u, h)
  | .float x, h => (.float x, h)
  | .string s, h => (.string s, h)
  | .list items, h =>
    let (vs, h) := allocItems items h
    let (r, h) := h.newList vs
    (.list r, h)
  | .map entries, h =>
    let (es, h) := allocEntries entries h
    let (r, h) := h.newMap es
    (.map r, h)

def allocItems : List Data → Heap → List Value × Heap
  | [], h => ([], h)
  | d :: rest, h =>
    let (v, h) := alloc d h
    let (vs, h) := allocItems rest h
    (v :: vs, h)

def allocEntries : List (String × Data) → Heap → Entries Value × Heap
  | [], h => ([], h)
  | (k, d) :: rest, h =>
    let (v, h) := alloc d h
    let (es, h) := allocEntries rest h
    ((k, v) :: es, h)

end

/-- An independent copy: the tree of the value, stored afresh. -/
def deepCopy (h : Heap) (v : Value) : Value × Heap := alloc (h.read v) h

def text (h : Heap) (v : Value) : String := (h.read v).text

/-! ## Equality -/

/-- Both lists have as many elements, related one by one. -/
def related {α : Type} (relation : α → α → Bool) : List α → List α → Bool
  | [], [] => true
  | x :: xs, y :: ys => relation x y && related relation xs ys
  | _, _ => false

/-- Equality of values, as far as `fuel` containers down.  A list or a map equals itself without a look
at its contents; otherwise contents are compared, floating-point numbers as numbers. -/
def equalAt (h : Heap) : Nat → Value → Value → Bool
  | _, .null, .null => true
  | _, .bool a, .bool b => a == b
  | _, .int a, .int b => a == b
  | _, .uint a, .uint b => a == b
  | _, .float a, .float b => a.equals b
  | _, .string a, .string b => a == b
  | 0, .list r, .list s => r == s
  | 0, .map r, .map s => r == s
  | fuel + 1, .list r, .list s => r == s || related (equalAt h fuel) (h.items r) (h.items s)
  | fuel + 1, .map r, .map s =>
    r == s || related (fun a b ↦ a.1 == b.1 && equalAt h fuel a.2 b.2) (h.entries r) (h.entries s)
  | _, _, _ => false

def equal (h : Heap) (v w : Value) : Bool := h.equalAt h.size v w

/-- Both values are handles on one list or one map. -/
def same : Value → Value → Bool
  | .list r, .list s => r == s
  | .map r, .map s => r == s
  | _, _ => false

end Heap

end Troupe
