import Troupe.Yaml.Node
import Troupe.Yaml.Scalar

/-!
# Reading YAML

A text is read as one document in four steps: characters, tokens, nodes, data.  Keys keep the characters
they were written with, whatever they would stand for as values.  Of entries with one key the last counts,
containers may nest as deeply as `Yaml.maxDepth`, and aliases may be followed a number of times that grows
with the size of the document.
-/

namespace Troupe.Yaml

/-- The greatest number of containers around a value. -/
def maxDepth : Nat := 128

def dataOfInt? (i : Int) : Option Data := Data.ofInt? i

/-- The data of a plain scalar without a tag. -/
def dataOfPlain? (text : String) : Option Data :=
  match Plain.ofText text with
  | .null => some .null
  | .bool b => some (.bool b)
  | .integer i => dataOfInt? i
  | .float x => some (.float x)
  | .text _ => some (.string text)

/-- The data of a scalar.  A tag of one of the core kinds states what the characters must spell. -/
def dataOfScalar? (sense : Sense) (plain : Bool) (text : String) : Option Data :=
  match sense with
  | .nothing => if plain then dataOfPlain? text else some (.string text)
  | .bool => (bool? text).map .bool
  | .integer => (integer? text.toList).bind dataOfInt?
  | .float => (float? text).map .float
  | .null => if isNull text then some .null else none
  | .own => none
  | .unknown => some (.string text)

/-! ## Sizes -/

mutual

/-- The number of scalars, aliases and ends of containers in a node. -/
def Node.events : Node → Nat
  | .scalar _ _ _ => 1
  | .alias _ => 1
  | .list _ items => 2 + eventsItems items
  | .map _ entries => 2 + eventsEntries entries

def Node.eventsItems : List Node → Nat
  | [] => 0
  | n :: rest => n.events + eventsItems rest

def Node.eventsEntries : List (Node × Node) → Nat
  | [] => 0
  | (k, v) :: rest => k.events + v.events + eventsEntries rest

end

/-! ## Data -/

abbrev Anchors := List (Nat × Node)

/-- What is read while the number of aliases that may still be followed is counted down. -/
abbrev Following := StateT Nat Option

/-- The node that is meant: for an alias, the one that has its number. -/
def Node.meant (anchors : Anchors) : Node → Following Node
  | .alias n => fun
    | 0 => none
    | jumps + 1 => (anchors.lookup n).map (·, jumps)
  | n => pure n

def Node.key (anchors : Anchors) (n : Node) : Following String := do
  match ← n.meant anchors with
  | .scalar _ _ text => pure text
  | _ => failure

/-- The data of a node inside `depth` more containers at most.  A node inside itself has none. -/
def Node.data (anchors : Anchors) (depth : Nat) (n : Node) : Following Data := do
  match ← n.meant anchors, depth with
  | .scalar p plain text, _ => StateT.lift (dataOfScalar? (Sense.ofTag p.tag) plain text)
  | .list p items, depth + 1 =>
    if Sense.ofTag p.tag = .own then failure
    else return .list (← items.mapM (Node.data anchors depth))
  | .map p entries, depth + 1 =>
    if Sense.ofTag p.tag = .own then failure
    else
      let put (es : Entries Data) (entry : Node × Node) : Following (Entries Data) := do
        let k ← entry.1.key anchors
        return Entries.insert k (← Node.data anchors depth entry.2) es
      return .map (← entries.foldlM put [])
  | _, _ => failure

def read? (s : String) : Option Data := do
  let tokens ← Token.ofChars? s.toList
  let n ← Node.ofTokens? tokens
  (n.data n.anchored.reverse maxDepth).run' (100 * n.events)

end Troupe.Yaml
