import Troupe.Json.Read

/-!
# Reading TOML texts

Texts come in four forms: between double quotes with escapes or between single quotes without, on one line
or, with three quotes, on several.  The readers start after the opening quotes and return the text with what
follows its closing quotes.
-/

namespace Troupe.Toml

/-- A character that may stand in a text as it is: no control character but the tab. -/
def isPlain (c : Char) : Bool := c == '\t' || (0x20 ≤ c.toNat && c.toNat ≠ 0x7F)

def isBlank (c : Char) : Bool := c == ' ' || c == '\t'

def skipBlanks (cs : List Char) : List Char := cs.dropWhile isBlank

def newline? : List Char → Option (List Char)
  | '\n' :: rest => some rest
  | '\r' :: '\n' :: rest => some rest
  | _ => none

/-- Reads a code point of `width` hexadecimal digits. -/
def codePoint? (width : Nat) (cs : List Char) : Option (Char × List Char) :=
  if width ≤ cs.length then do
    let n ← Numeral.natural? 16 (cs.take width)
    (Json.charOf? n).map (·, cs.drop width)
  else none

def escape? : List Char → Option (Char × List Char)
  | 'b' :: rest => some ('\x08', rest)
  | 't' :: rest => some ('\t', rest)
  | 'n' :: rest => some ('\n', rest)
  | 'f' :: rest => some ('\x0c', rest)
  | 'r' :: rest => some ('\r', rest)
  | '"' :: rest => some ('"', rest)
  | '\\' :: rest => some ('\\', rest)
  | 'u' :: rest => codePoint? 4 rest
  | 'U' :: rest => codePoint? 8 rest
  | _ => none

/-- Puts a character before a text that was read. -/
def prepend (c : Char) (read : Option (List Char × List Char)) : Option (List Char × List Char) :=
  read.map fun (cs, rest) ↦ (c :: cs, rest)

def basic? : Nat → List Char → Option (List Char × List Char)
  | fuel + 1, c :: rest =>
    if c = '"' then some ([], rest)
    else if c = '\\' then (escape? rest).bind fun (c, rest) ↦ prepend c (basic? fuel rest)
    else if isPlain c then prepend c (basic? fuel rest)
    else none
  | _, _ => none

def literal? : List Char → Option (List Char × List Char)
  | c :: rest =>
    if c = '\'' then some ([], rest)
    else if isPlain c then prepend c (literal? rest)
    else none
  | [] => none

/-- The end of a text of several lines: three quotes close it, and up to two before them belong to it. -/
def closing? (quote : Char) (cs : List Char) : Option (List Char × List Char) :=
  let n := (cs.takeWhile (· == quote)).length
  if n < 3 then none
  else some (List.replicate (min n 5 - 3) quote, cs.drop (min n 5))

/-- The text after the end of a line and all blanks and line ends that follow. -/
def skipLines : List Char → List Char
  | '\r' :: '\n' :: rest => skipLines rest
  | c :: rest => if isBlank c || c == '\n' then skipLines rest else c :: rest
  | [] => []

/-- The text after a backslash that ends its line. -/
def continued? (cs : List Char) : Option (List Char) := (newline? (skipBlanks cs)).map skipLines

/-- Reads a text of several lines.  Where `escapes` holds, backslashes escape characters and join lines.
Every line ends in a single line feed. -/
def lines? (quote : Char) (escapes : Bool) : Nat → List Char → Option (List Char × List Char)
  | fuel + 1, c :: rest =>
    if let some done := closing? quote (c :: rest) then some done
    else if c = '\\' ∧ escapes then
      match continued? rest with
      | some rest => lines? quote escapes fuel rest
      | none => (escape? rest).bind fun (c, rest) ↦ prepend c (lines? quote escapes fuel rest)
    else if let some rest := newline? (c :: rest) then prepend '\n' (lines? quote escapes fuel rest)
    else if isPlain c then prepend c (lines? quote escapes fuel rest)
    else none
  | _, _ => none

/-- Reads a text of several lines after its opening quotes; a line end right after them is left out. -/
def multiline? (quote : Char) (escapes : Bool) (cs : List Char) : Option (List Char × List Char) :=
  let cs := (newline? cs).getD cs
  lines? quote escapes cs.length cs

def line? : List Char → Option (String × List Char)
  | '"' :: rest => (basic? rest.length rest).map fun (cs, rest) ↦ (String.ofList cs, rest)
  | '\'' :: rest => (literal? rest).map fun (cs, rest) ↦ (String.ofList cs, rest)
  | _ => none

def text? : List Char → Option (String × List Char)
  | '"' :: '"' :: '"' :: rest =>
    (multiline? '"' true rest).map fun (cs, rest) ↦ (String.ofList cs, rest)
  | '\'' :: '\'' :: '\'' :: rest =>
    (multiline? '\'' false rest).map fun (cs, rest) ↦ (String.ofList cs, rest)
  | cs => line? cs

end Troupe.Toml
