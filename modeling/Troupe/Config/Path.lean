import Troupe.Data.Basic
import Troupe.Decimal.Numeral

/-!
# Paths into settings

Settings form a tree, and a path leads to one of them: names joined by points, with positions in brackets
where a list is entered.  `Settings.put` changes what a path leads to.  Names of settings are in lower case,
and a table is merged into the one that is there already.
-/

namespace Troupe.Settings

inductive Step where
  | name (s : String)
  /-- to a position in a list; negative positions count from its end -/
  | position (i : Int)
deriving DecidableEq, Repr

/-- A letter in lower case.  Names have letters of English alone, and of the other letters only the sign for
Kelvin has one of these as its lower case. -/
def lowerChar (c : Char) : Char := if c = '\u212A' then 'k' else c.toLower

def lower (s : String) : String := s.map lowerChar

/-! ## The text of a path -/

def isNameChar (c : Char) : Bool := c.isAlphanum || c == ' ' || c == '_' || c == '-'

/-- Reads a name, which must not be empty. -/
def name? (cs : List Char) : Option (Step × List Char) :=
  let (name, rest) := cs.span isNameChar
  if name = [] then none else some (.name (String.ofList name), rest)

def isBlank (c : Char) : Bool := c == ' ' || c == '\t'

/-- Reads a position up to its closing bracket. -/
def position? (cs : List Char) : Option (Step × List Char) :=
  let (sign, rest) := match cs.dropWhile isBlank with
    | '-' :: rest => (-1, rest)
    | rest => ((1 : Int), rest)
  let (digits, rest) := Numeral.spanDigits rest
  match Numeral.natural? 10 digits, rest.dropWhile isBlank with
  | some n, ']' :: rest => some (.position (sign * n), rest)
  | _, _ => none

/-- Reads the steps after the first one, up to the end of the text. -/
def steps? : Nat → List Char → Option (List Step)
  | _, [] => some []
  | 0, _ => none
  | fuel + 1, c :: rest => do
    let (step, rest) ←
      if c = '.' then name? rest else if c = '[' then position? rest else none
    (steps? fuel rest).map (step :: ·)

def path? (s : String) : Option (List Step) := do
  let (first, rest) ← name? s.toList
  (steps? rest.length rest).map (first :: ·)

/-- The steps that a key takes: those of a path, or one to the whole key if it is none. -/
def pathOf (key : String) : List Step := (path? key).getD [.name key]

/-! ## Changing settings -/

mutual

/-- What is left of `old` when `new` is put in its place: a table is merged into it, entry by entry, and
everything else replaces it. -/
def merge (new : Data) (old : Option Data) : Data :=
  match new with
  | .map entries => mergeEntries entries (old.getD (.map []))
  | d => d

/-- Merges entries into a tree, which becomes a table if it is none. -/
def mergeEntries (entries : List (String × Data)) (old : Data) : Data :=
  match entries with
  | [] => old
  | (k, d) :: rest =>
    let k := lower k
    let table := match old with
      | .map es => es
      | _ => []
    mergeEntries rest (.map (Entries.insert k (merge d (Entries.find? k table)) table))

end

/-- The place of a position in a list of some length, if it is not before its start. -/
def place? (i : Int) (length : Nat) : Option Nat :=
  let i := if i < 0 then i + length else i
  if 0 ≤ i then some i.toNat else none

/-- Puts a value at a place of a list, which is filled up with nulls as far as needed. -/
def putAt (i : Nat) (d : Data) (items : List Data) : List Data :=
  let items := items ++ List.replicate (i + 1 - items.length) .null
  items.set i d

/-- Changes what a path leads to.  What is no table or no list where the path needs one is replaced. -/
def put (value : Data) : List Step → Option Data → Data
  | [], old => merge value old
  | .name k :: path, old =>
    let k := lower k
    let table := match old with
      | some (.map es) => es
      | _ => []
    .map (Entries.insert k (put value path (Entries.find? k table)) table)
  | .position i :: path, old =>
    let items := match old with
      | some (.list ds) => ds
      | _ => []
    match place? i items.length with
    | some i => .list (putAt i (if path = [] then value else put value path items[i]?) items)
    | none => .list items

def putKey (settings : Data) (key : String) (value : Data) : Data :=
  put value (pathOf key) (some settings)

end Troupe.Settings
