import Troupe.Data.Basic

/-!
# Looking into trees

What a tree holds, for readers that expect a form and treat everything else as absent.
-/

namespace Troupe.Data

/-- The items of a list; other trees have none. -/
def items : Data → List Data
  | .list ds => ds
  | _ => []

/-- The entries of a map; other trees have none. -/
def entries : Data → Entries Data
  | .map es => es
  | _ => []

def find? (d : Data) (key : String) : Option Data := Entries.find? key d.entries

/-- The tree under a key of a map, null if there is none. -/
def field (d : Data) (key : String) : Data := (d.find? key).getD .null

def string? : Data → Option String
  | .string s => some s
  | _ => none

def integer? : Data → Option Int
  | .int i => some i.toInt
  | .uint u => some u.toNat
  | _ => none

def isTrue : Data → Bool
  | .bool b => b
  | _ => false

end Troupe.Data
