import Troupe.Toml.Moment
import Troupe.Toml.Number
import Troupe.Toml.Table
import Troupe.Toml.Text

/-!
# Reading TOML

A document is read line by line into statements, from which the tree is built.  Dates and times become their
canonical texts.
-/

namespace Troupe.Toml

/-- Lists and tables nest less deeply than this, and so many names do not stand in one key. -/
def depthLimit : Nat := 80

/-! ## Line ends and keys -/

/-- The text after a comment, which goes up to the end of its line. -/
def skipComment : List Char → List Char
  | '#' :: rest => rest.dropWhile isPlain
  | cs => cs

/-- The text after the end of a line, with blanks and a comment before it.  The end of the document ends its
last line. -/
def endLine? (cs : List Char) : Option (List Char) :=
  match skipComment (skipBlanks cs) with
  | [] => some []
  | cs => newline? cs

/-- The text after blanks, line ends and comments. -/
def skipSpace : Nat → List Char → List Char
  | fuel + 1, cs =>
    let cs := skipBlanks cs
    match newline? (skipComment cs) with
    | some rest => skipSpace fuel rest
    | none => cs
  | 0, cs => cs

def isNameChar (c : Char) : Bool := c.isAlphanum || c == '-' || c == '_'

def name? (cs : List Char) : Option (String × List Char) :=
  match cs with
  | '"' :: _ | '\'' :: _ => line? cs
  | _ =>
    let (name, rest) := cs.span isNameChar
    if name = [] then none else some (String.ofList name, rest)

/-- Reads names with points between them: those before the last one, and the last one. -/
def names? : Nat → List Char → Option (List String × String × List Char)
  | 0, _ => none
  | fuel + 1, cs => do
    let (name, rest) ← name? (skipBlanks cs)
    match skipBlanks rest with
    | '.' :: rest =>
      let (path, last, rest) ← names? fuel rest
      some (name :: path, last, rest)
    | rest => some ([], name, rest)

def key? (cs : List Char) : Option (List String × String × List Char) := names? (depthLimit - 1) cs

/-! ## Values -/

/-- The text after a word, if it starts with it. -/
def word? (word : String) (cs : List Char) : Option (List Char) :=
  if word.toList.isPrefixOf cs then some (cs.drop word.length) else none

def momentOrNumber? (cs : List Char) : Option (Data × List Char) :=
  match moment? cs with
  | some (m, rest) => some (.string m.text, rest)
  | none => number? cs

def scalar? (cs : List Char) : Option (Data × List Char) :=
  match cs with
  | '"' :: _ | '\'' :: _ => (text? cs).map fun (s, rest) ↦ (.string s, rest)
  | 't' :: _ => (word? "true" cs).map (.bool true, ·)
  | 'f' :: _ => (word? "false" cs).map (.bool false, ·)
  | _ => momentOrNumber? cs

mutual

/-- Reads a value that stands inside `depth` more lists and tables at most. -/
def value? : Nat → Nat → List Char → Option (Data × List Char)
  | 0, _, _ => none
  | fuel + 1, depth, cs =>
    match cs, depth with
    | '[' :: _, 0 | '\x7b' :: _, 0 => none
    | '[' :: rest, depth + 1 => (items? fuel depth rest).map fun (ds, rest) ↦ (.list ds, rest)
    | '\x7b' :: rest, depth + 1 =>
      match skipBlanks rest with
      | '\x7d' :: rest => some (.map [], rest)
      | rest => do
        let (pairs, rest) ← pairs? fuel depth rest
        let es ← Node.ofPairs? pairs
        some (.map (Node.dataEntries es), rest)
    | cs, _ => scalar? cs

/-- Reads the items of a list, up to and with its closing bracket.  A comma may follow the last one. -/
def items? : Nat → Nat → List Char → Option (List Data × List Char)
  | 0, _, _ => none
  | fuel + 1, depth, cs =>
    match skipSpace cs.length cs with
    | ']' :: rest => some ([], rest)
    | cs => do
      let (d, rest) ← value? fuel depth cs
      match skipSpace rest.length rest with
      | ']' :: rest => some ([d], rest)
      | ',' :: rest =>
        let (ds, rest) ← items? fuel depth rest
        some (d :: ds, rest)
      | _ => none

/-- Reads the pairs of a table on one line, up to and with its closing brace. -/
def pairs? : Nat → Nat → List Char → Option (List (List String × String × Data) × List Char)
  | 0, _, _ => none
  | fuel + 1, depth, cs => do
    let (path, key, rest) ← key? cs
    match rest with
    | '=' :: rest =>
      let (d, rest) ← value? fuel depth (skipBlanks rest)
      match skipBlanks rest with
      | '\x7d' :: rest => some ([(path, key, d)], rest)
      | ',' :: rest =>
        let (pairs, rest) ← pairs? fuel depth rest
        some ((path, key, d) :: pairs, rest)
      | _ => none
    | _ => none

end

/-! ## Documents -/

/-- Reads the key of a header, up to the end of its line. -/
def header? (closing : String) (cs : List Char) : Option (List String × String × List Char) := do
  let (path, key, rest) ← key? cs
  let rest ← endLine? (← word? closing rest)
  some (path, key, rest)

/-- Reads the statement at the start of a line, up to the line's end. -/
def statement? : List Char → Option (Statement × List Char)
  | '[' :: '[' :: rest => (header? "]]" rest).map fun (path, key, rest) ↦ (.element path key, rest)
  | '[' :: rest => (header? "]" rest).map fun (path, key, rest) ↦ (.header path key, rest)
  | cs => do
    let (path, key, rest) ← key? cs
    match rest with
    | '=' :: rest =>
      let (d, rest) ← value? (2 * rest.length + 2) (depthLimit - 1) (skipBlanks rest)
      let rest ← endLine? rest
      some (.pair path key d, rest)
    | _ => none

def statements? : Nat → List Char → Option (List Statement)
  | 0, cs => if skipBlanks cs = [] then some [] else none
  | fuel + 1, cs =>
    match skipBlanks cs with
    | [] => some []
    | cs =>
      match endLine? cs with
      | some rest => statements? fuel rest
      | none => do
        let (s, rest) ← statement? cs
        (statements? fuel rest).map (s :: ·)

/-- The tables that a document holds.  A byte order mark at its start is left out. -/
def read? (s : String) : Option (Entries Data) :=
  let cs := match s.toList with
    | '\ufeff' :: rest => rest
    | cs => cs
  (statements? cs.length cs).bind tree?

end Troupe.Toml
