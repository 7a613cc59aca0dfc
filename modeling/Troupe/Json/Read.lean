import Troupe.Json.Number

/-!
# Reading JSON

A reader of strict JSON. Of entries with one key the last counts, and containers may nest as deeply as
`Json.maxDepth`.
-/

namespace Troupe.Json

/-- The greatest number of containers around a value. -/
def maxDepth : Nat := 127

def skipBlanks (cs : List Char) : List Char :=
  cs.dropWhile fun c ↦ c == ' ' || c == '\n' || c == '\t' || c == '\r'

def escapeLetter? : Char → Option Char
  | '"' => some '"'
  | '\\' => some '\\'
  | '/' => some '/'
  | 'b' => some '\x08'
  | 'f' => some '\x0c'
  | 'n' => some '\n'
  | 'r' => some '\r'
  | 't' => some '\t'
  | _ => none

def hex4? : List Char → Option (Nat × List Char)
  | a :: b :: c :: d :: rest => (Numeral.natural? 16 [a, b, c, d]).map (·, rest)
  | _ => none

def charOf? (n : Nat) : Option Char := if h : n.isValidChar then some (Char.ofNatAux n h) else none

/-- The character of a `\u` escape, after its `\u`: one unit, or a pair of surrogates. -/
def unicodeEscape? (cs : List Char) : Option (Char × List Char) := do
  let (n, rest) ← hex4? cs
  if 0xD800 ≤ n ∧ n < 0xDC00 then
    match rest with
    | '\\' :: 'u' :: rest =>
      let (m, rest) ← hex4? rest
      if 0xDC00 ≤ m ∧ m < 0xE000 then
        (charOf? (0x10000 + (n - 0xD800) * 0x400 + (m - 0xDC00))).map (·, rest)
      else none
    | _ => none
  else (charOf? n).map (·, rest)

/-- Reads a text after its opening quote, up to and with its closing quote. -/
def textChars : Nat → List Char → Option (List Char × List Char)
  | 0, _ => none
  | _, [] => none
  | fuel + 1, c :: rest =>
    if c = '"' then some ([], rest)
    else if c = '\\' then
      match rest with
      | 'u' :: rest => do
        let (c, rest) ← unicodeEscape? rest
        let (cs, rest) ← textChars fuel rest
        some (c :: cs, rest)
      | letter :: rest => do
        let c ← escapeLetter? letter
        let (cs, rest) ← textChars fuel rest
        some (c :: cs, rest)
      | [] => none
    else if c.toNat < 0x20 then none
    else do
      let (cs, rest) ← textChars fuel rest
      some (c :: cs, rest)

/-- Reads a text after its opening quote. -/
def text (cs : List Char) : Option (String × List Char) :=
  (textChars cs.length cs).map fun (cs, rest) ↦ (String.ofList cs, rest)

/-- The text after a word, if it starts with it. -/
def word? (word : List Char) (cs : List Char) : Option (List Char) :=
  if word.isPrefixOf cs then some (cs.drop word.length) else none

mutual

/-- Reads one value inside `depth` more containers at most. -/
def value : Nat → Nat → List Char → Option (Data × List Char)
  | 0, _, _ => none
  | fuel + 1, depth, cs =>
    match skipBlanks cs with
    | 'n' :: rest => (word? ['u', 'l', 'l'] rest).map (.null, ·)
    | 't' :: rest => (word? ['r', 'u', 'e'] rest).map (.bool true, ·)
    | 'f' :: rest => (word? ['a', 'l', 's', 'e'] rest).map (.bool false, ·)
    | '"' :: rest => (text rest).map fun (s, rest) ↦ (.string s, rest)
    | '[' :: rest =>
      match depth, skipBlanks rest with
      | 0, _ => none
      | _, ']' :: rest => some (.list [], rest)
      | depth + 1, rest => (items fuel depth rest).map fun (ds, rest) ↦ (.list ds, rest)
    | '\x7b' :: rest =>
      match depth, skipBlanks rest with
      | 0, _ => none
      | _, '\x7d' :: rest => some (.map [], rest)
      | depth + 1, rest => (entries fuel depth rest []).map fun (es, rest) ↦ (.map es, rest)
    | cs => number cs

/-- Reads the items of a list that has one, up to and with its closing bracket. -/
def items : Nat → Nat → List Char → Option (List Data × List Char)
  | 0, _, _ => none
  | fuel + 1, depth, cs => do
    let (d, rest) ← value fuel depth cs
    match skipBlanks rest with
    | ']' :: rest => some ([d], rest)
    | ',' :: rest =>
      let (ds, rest) ← items fuel depth rest
      some (d :: ds, rest)
    | _ => none

/-- Reads the entries of a map that has one, up to and with its closing brace, into those read so far. -/
def entries : Nat → Nat → List Char → Entries Data → Option (Entries Data × List Char)
  | 0, _, _, _ => none
  | fuel + 1, depth, cs, es =>
    match skipBlanks cs with
    | '"' :: rest => do
      let (k, rest) ← text rest
      match skipBlanks rest with
      | ':' :: rest =>
        let (d, rest) ← value fuel depth rest
        let es := Entries.insert k d es
        match skipBlanks rest with
        | '\x7d' :: rest => some (es, rest)
        | ',' :: rest => entries fuel depth rest es
        | _ => none
      | _ => none
    | _ => none

end

/-- Reads the value at the start of a text, and the rest.  Every two steps take a character. -/
def readFirst? (cs : List Char) : Option (Data × List Char) := value (2 * cs.length + 2) maxDepth cs

/-- The value that a text holds, with nothing but blanks around it. -/
def read? (s : String) : Option Data :=
  match readFirst? s.toList with
  | some (d, rest) => if skipBlanks rest = [] then some d else none
  | none => none

end Troupe.Json
