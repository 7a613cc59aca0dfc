import Troupe.Data.Text
import Troupe.Toml.Text

/-!
# Writing TOML

A document is written as blocks: a header and the pairs below it.  Maps become blocks of their own, lists of
maps become blocks for each of their items, and everything else stands in a pair.  Not every tree can be
written: there is no null, and integers must fit a signed word.
-/

namespace Troupe.Toml

/-! ## Texts -/

/-- What a text needs from the quotes around it. -/
structure Needs where
  /-- some character can only be written as an escape -/
  escapes : Bool
  backslash : Bool
  newline : Bool
  single : Nat
  double : Nat

/-- The length of the longest run of a character, when a run of length `run` goes on at the start. -/
def longestRun (c : Char) : Nat → List Char → Nat
  | _, [] => 0
  | run, d :: rest =>
    if d = c then max (run + 1) (longestRun c (run + 1) rest) else longestRun c 0 rest

/-- A character that can only be written as an escape. -/
def needsEscape (c : Char) : Bool := !isPlain c && c != '\n'

def Needs.ofText (cs : List Char) : Needs where
  escapes := cs.any needsEscape
  backslash := cs.contains '\\'
  newline := cs.contains '\n'
  single := longestRun '\'' 0 cs
  double := longestRun '"' 0 cs

/-- The forms of a text: with escapes or without, on one line or on several. -/
inductive Form where
  | basic | literal | basicLines | literalLines
deriving DecidableEq, Repr

/-- The form of a text on one line: escapes are avoided where single quotes do. -/
def Form.ofLine (n : Needs) : Form :=
  if (n.escapes || n.newline) || (!n.backslash && n.double == 0) then .basic
  else if n.single = 0 then .literal
  else .basic

/-- The form of a text: the first one that can be read without escapes, and otherwise one with them. -/
def Form.ofText (n : Needs) : Form :=
  if n.escapes then if n.newline then .basicLines else .basic
  else if !n.backslash && n.double == 0 && !n.newline then .basic
  else if n.single = 0 && !n.newline then .literal
  else if !n.backslash && n.double ≤ 2 then .basicLines
  else if n.single ≤ 2 then .literalLines
  else if n.newline then .basicLines
  else .basic

def hex4 (n : Nat) : String :=
  let digits := (Nat.toDigits 16 n).map Char.toUpper
  String.ofList (List.replicate (4 - digits.length) '0' ++ digits)

/-- The escape of a character that needs one. -/
def escapeOf (c : Char) : String :=
  if c = '\x08' then "\\b"
  else if c = '\t' then "\\t"
  else if c = '\n' then "\\n"
  else if c = '\x0c' then "\\f"
  else if c = '\r' then "\\r"
  else if c = '"' then "\\\""
  else if c = '\\' then "\\\\"
  else "\\u" ++ hex4 c.toNat

/-- The characters of a text with escapes: on several lines, line ends and up to two double quotes in a
row stand as they are. -/
def escaped (lines : Bool) : Nat → List Char → String
  | _, [] => ""
  | run, c :: rest =>
    if c = '"' then
      if lines && run < 2 then "\"" ++ escaped lines (run + 1) rest
      else escapeOf c ++ escaped lines 0 rest
    else if c = '\n' && lines then "\n" ++ escaped lines 0 rest
    else if c = '\t' || c = '\\' || !isPlain c then escapeOf c ++ escaped lines 0 rest
    else c.toString ++ escaped lines 0 rest

/-- The text in a form.  A line end is put before a text that has one. -/
def Form.write (f : Form) (s : String) : String :=
  let start := if s.toList.contains '\n' then "\n" else ""
  match f with
  | .basic => "\"" ++ escaped false 0 s.toList ++ "\""
  | .literal => "'" ++ s ++ "'"
  | .basicLines => "\"\"\"" ++ start ++ escaped true 0 s.toList ++ "\"\"\""
  | .literalLines => "'''" ++ start ++ s ++ "'''"

def writeText (s : String) : String := (Form.ofText (.ofText s.toList)).write s

def isBareChar (c : Char) : Bool := c.isAlphanum || c == '-' || c == '_'

def writeName (s : String) : String :=
  if s ≠ "" ∧ s.toList.all isBareChar then s else (Form.ofLine (.ofText s.toList)).write s

def writeKey (path : List String) : String := ".".intercalate (path.map writeName)

/-! ## Values -/

/-- Numbers are written positionally at every size, and a whole number ends in `.0`. -/
def floatNotation : Notation := { Data.floatNotation with nan := "nan" }

mutual

/-- The text of a value.  A list of more than one item has a line for each. -/
def writeValue? : Data → Option String
  | .null => none
  | .bool b => some (if b then "true" else "false")
  | .int i => some (toString i.toInt)
  | .uint u => if u.toNat < 0x8000000000000000 then some (toString u.toNat) else none
  | .float x => some (floatNotation.write x)
  | .string s => some (writeText s)
  | .list [] => some "[]"
  | .list [d] => (writeValue? d).map fun s ↦ "[" ++ s ++ "]"
  | .list items => (writeItems? items).map fun s ↦ "[" ++ s ++ "\n]"
  | .map [] => some "\x7b\x7d"
  | .map entries => (writeEntries? true entries).map fun s ↦ "\x7b " ++ s ++ " \x7d"

def writeItems? : List Data → Option String
  | [] => some ""
  | d :: rest => do
    let item ← writeValue? d
    let rest ← writeItems? rest
    some ("\n    " ++ item ++ "," ++ rest)

/-- The pairs of a map on one line; a comma goes before each but the first. -/
def writeEntries? (first : Bool) : List (String × Data) → Option String
  | [] => some ""
  | (k, d) :: rest => do
    let value ← writeValue? d
    let rest ← writeEntries? false rest
    some ((if first then "" else ", ") ++ writeName k ++ " = " ++ value ++ rest)

end

/-! ## Blocks -/

inductive Header where
  /-- none: the block starts the document -/
  | top
  | table (path : List String)
  | element (path : List String)
deriving DecidableEq, Repr

structure Block where
  header : Header
  /-- the pairs, in the order in which they are written -/
  pairs : List (String × Data)

def isTable : Data → Bool
  | .map _ => true
  | _ => false

def hasBlocks : Data → Bool
  | .map _ => true
  | .list items => items ≠ [] && items.all isTable
  | _ => false

/-- The block of a table's own pairs.  A table that holds nothing but other tables needs none. -/
def ownBlocks (header : Header) (entries : List (String × Data)) : List Block :=
  let pairs := entries.filter fun e ↦ !hasBlocks e.2
  match header with
  | .table _ => if pairs.isEmpty && !entries.isEmpty then [] else [⟨header, pairs⟩]
  | _ => [⟨header, pairs⟩]

mutual

/-- The blocks of what stands under a key; for values there are none. -/
def blocksAt (path : List String) : Data → List Block
  | .map entries => ownBlocks (.table path) entries ++ blocksOfEntries path entries
  | .list items => if items.all isTable then blocksOfItems path items else []
  | _ => []

def blocksOfEntries (path : List String) : List (String × Data) → List Block
  | [] => []
  | (k, d) :: rest => blocksAt (path ++ [k]) d ++ blocksOfEntries path rest

def blocksOfItems (path : List String) : List Data → List Block
  | [] => []
  | .map entries :: rest =>
    ownBlocks (.element path) entries ++ blocksOfEntries path entries ++ blocksOfItems path rest
  | _ :: rest => blocksOfItems path rest

end

def Header.write : Header → String
  | .top => ""
  | .table path => "[" ++ writeKey path ++ "]\n"
  | .element path => "[[" ++ writeKey path ++ "]]\n"

def writePairs? : List (String × Data) → Option String
  | [] => some ""
  | (k, d) :: rest => do
    let value ← writeValue? d
    let rest ← writePairs? rest
    some (writeName k ++ " = " ++ value ++ "\n" ++ rest)

def Block.write? (b : Block) : Option String := (writePairs? b.pairs).map (b.header.write ++ ·)

/-- The text of blocks, an empty line before each but the first; a start without pairs is left out. -/
def write? (blocks : List Block) : Option String :=
  let shown := blocks.filter fun b ↦ b.header ≠ .top || !b.pairs.isEmpty
  (shown.mapM Block.write?).map "\n".intercalate

end Troupe.Toml
