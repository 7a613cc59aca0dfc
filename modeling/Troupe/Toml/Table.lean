import Troupe.Data.Basic

/-!
# Tables under construction

A document is a sequence of statements, each of which adds to the tree built so far or contradicts it.  The
tree records how each table came to be, because that decides what may still be added:

* a table with a header of its own gets no second header, and no dotted key from outside reaches into it;
* a table that dotted keys made is extended by dotted keys only, in the place where they made it;
* a table that only stood in the path of some header may still get its own header;
* lists and tables that are written as values are closed.

`Statement.apply?` is one step, and `tree?` runs all of them.
-/

namespace Troupe.Toml

/-- How a table came to be. -/
inductive Origin where
  /-- it has a header of its own -/
  | header
  /-- it stood in the path of another header -/
  | path
  /-- it stood in a dotted key -/
  | dotted
deriving DecidableEq, Repr

inductive Node where
  /-- a value, closed to additions -/
  | value (d : Data)
  | table (origin : Origin) (entries : List (String × Node))
  | tables (elements : List (List (String × Node)))
deriving Inhabited

namespace Node

mutual

def data : Node → Data
  | .value d => d
  | .table _ entries => .map (dataEntries entries)
  | .tables elements => .list (dataElements elements)

def dataEntries : List (String × Node) → List (String × Data)
  | [] => []
  | (k, n) :: rest => (k, data n) :: dataEntries rest

def dataElements : List (List (String × Node)) → List Data
  | [] => []
  | es :: rest => .map (dataEntries es) :: dataElements rest

end

/-- Changes the table at the end of a path of keys, which makes the tables that are missing on its way.  In
a list of tables the path goes on in the last one. -/
def change? (dotted : Bool) (f : Origin → Entries Node → Option (Entries Node)) :
    List String → Origin → Entries Node → Option (Entries Node)
  | [], origin, es => f origin es
  | key :: path, _, es => do
    let node ← match Entries.find? key es with
      | none =>
        let origin := if dotted then .dotted else .path
        (change? dotted f path origin []).map (Node.table origin)
      | some (.value _) => none
      | some (.table origin inner) =>
        if dotted ∧ origin = .header then none
        else (change? dotted f path origin inner).map (Node.table origin)
      | some (.tables elements) =>
        elements.getLast?.bind fun last ↦
          (change? dotted f path .header last).map fun last ↦ .tables (elements.dropLast ++ [last])
    some (Entries.insert key node es)

/-- Adds a value under a dotted key, given as the path to its table and its last name. -/
def addPair? (path : List String) (key : String) (d : Data) : Origin → Entries Node → Option (Entries Node) :=
  change? true (fun origin es ↦
    if decide (origin = .dotted) == path.isEmpty || Entries.contains key es then none
    else some (Entries.insert key (.value d) es)) path

def addHeader? (path : List String) (key : String) : Origin → Entries Node → Option (Entries Node) :=
  change? false (fun _ es ↦
    match Entries.find? key es with
    | none => some (Entries.insert key (.table .header []) es)
    | some (.table .path inner) => some (Entries.insert key (.table .header inner) es)
    | _ => none) path

def addElement? (path : List String) (key : String) : Origin → Entries Node → Option (Entries Node) :=
  change? false (fun _ es ↦
    match Entries.find? key es with
    | none => some (Entries.insert key (.tables [[]]) es)
    | some (.tables elements) => some (Entries.insert key (.tables (elements ++ [[]])) es)
    | _ => none) path

def ofPairs? (pairs : List (List String × String × Data)) : Option (Entries Node) :=
  pairs.foldlM (fun es (path, key, d) ↦ addPair? path key d .header es) []

end Node

inductive Statement where
  | pair (path : List String) (key : String) (d : Data)
  /-- the header of a table -/
  | header (path : List String) (key : String)
  | element (path : List String) (key : String)

/-- The tree built so far, and the path of the table to which pairs are added. -/
structure Draft where
  current : List String
  root : Entries Node

/-- Adds a statement to a draft, unless it contradicts it. -/
def Statement.apply? (d : Draft) : Statement → Option Draft
  | .pair path key value =>
    (Node.change? false (Node.addPair? path key value) d.current .header d.root).map
      fun root ↦ { d with root }
  | .header path key => (Node.addHeader? path key .header d.root).map fun root ↦ ⟨path ++ [key], root⟩
  | .element path key => (Node.addElement? path key .header d.root).map fun root ↦ ⟨path ++ [key], root⟩

/-- The tree of a sequence of statements without contradictions. -/
def tree? (statements : List Statement) : Option (Entries Data) :=
  (statements.foldlM Statement.apply? (⟨[], []⟩ : Draft)).map fun d ↦ Node.dataEntries d.root

end Troupe.Toml
