import Troupe.Binary64.Basic
import Troupe.Data.Entries

/-!
# Data trees

`Data` is what actors exchange, written out as a tree: scalars, lists and string-keyed maps.  Integers come
in two forms, signed words and unsigned words; `Data.ofUInt64` chooses the signed form whenever it fits, and
`Data.normalize` does the same throughout a tree.
-/

namespace Troupe

inductive Kind where
  | null | bool | int | uint | float | string | list | map
deriving DecidableEq, Repr

def Kind.name : Kind → String
  | .null => "Null"
  | .bool => "Bool"
  | .int => "Int"
  | .uint => "UInt"
  | .float => "Float"
  | .string => "String"
  | .list => "List"
  | .map => "Map"

def Kind.all : List Kind := [.null, .bool, .int, .uint, .float, .string, .list, .map]

def Kind.ofName? (name : String) : Option Kind := Kind.all.find? fun k ↦ k.name == name

inductive Data where
  | null
  | bool (b : Bool)
  | int (i : Int64)
  | uint (u : UInt64)
  | float (x : Binary64)
  | string (s : String)
  | list (items : List Data)
  /-- a string-keyed map, its entries in key order -/
  | map (entries : List (String × Data))
deriving Inhabited, Repr

namespace Data

def kind : Data → Kind
  | .null => .null
  | .bool _ => .bool
  | .int _ => .int
  | .uint _ => .uint
  | .float _ => .float
  | .string _ => .string
  | .list _ => .list
  | .map _ => .map

/-- The integer in its preferred form: signed whenever it fits. -/
def ofUInt64 (u : UInt64) : Data := if u.toNat < 0x8000000000000000 then .int (Int64.ofNat u.toNat) else .uint u

/-- The integer in its preferred form, if it fits one of the two. -/
def ofInt? (i : Int) : Option Data :=
  if -0x8000000000000000 ≤ i ∧ i < 0x8000000000000000 then some (.int (Int64.ofInt i))
  else if 0 ≤ i ∧ i < 0x10000000000000000 then some (.uint (UInt64.ofNat i.toNat))
  else none

mutual

/-- The number of containers on the longest path from the root. -/
def depth : Data → Nat
  | .list items => 1 + depthItems items
  | .map entries => 1 + depthEntries entries
  | _ => 0

def depthItems : List Data → Nat
  | [] => 0
  | d :: rest => max (depth d) (depthItems rest)

def depthEntries : List (String × Data) → Nat
  | [] => 0
  | (_, d) :: rest => max (depth d) (depthEntries rest)

end

mutual

/-- Every integer in its preferred form. -/
def normalize : Data → Data
  | .uint u => ofUInt64 u
  | .list items => .list (normalizeItems items)
  | .map entries => .map (normalizeEntries entries)
  | d => d

def normalizeItems : List Data → List Data
  | [] => []
  | d :: rest => normalize d :: normalizeItems rest

def normalizeEntries : List (String × Data) → List (String × Data)
  | [] => []
  | (k, d) :: rest => (k, normalize d) :: normalizeEntries rest

end

mutual

/-- Equality of trees by value: floating-point numbers are compared as numbers. -/
def equals : Data → Data → Bool
  | .null, .null => true
  | .bool a, .bool b => a == b
  | .int a, .int b => a == b
  | .uint a, .uint b => a == b
  | .float a, .float b => a.equals b
  | .string a, .string b => a == b
  | .list a, .list b => equalsItems a b
  | .map a, .map b => equalsEntries a b
  | _, _ => false

def equalsItems : List Data → List Data → Bool
  | [], [] => true
  | a :: as, b :: bs => equals a b && equalsItems as bs
  | _, _ => false

def equalsEntries : List (String × Data) → List (String × Data) → Bool
  | [], [] => true
  | (k, a) :: as, (l, b) :: bs => k == l && equals a b && equalsEntries as bs
  | _, _ => false

end

end Data

end Troupe
