import Troupe.Data.Basic
import Troupe.Decimal.Notation

/-!
# Writing JSON

`Json.write` writes data on one line without blanks.  Numbers that JSON has no text for are written as
`null`.
-/

namespace Troupe.Json

/-- Numbers are written with the fewest digits that identify them, positionally from `10 ^ -5` and below
`10 ^ 16`, otherwise with a signed exponent; a whole number ends in `.0`. -/
def floatNotation : Notation where
  positionalFrom := some (-5)
  positionalBelow := some 16
  pointZero := true
  plusSign := true
  tie := .toEven
  nan := "null"
  infinity := "null"
  minusInfinity := "null"

def hexDigit (n : Nat) : Char := if n < 10 then Char.ofNat (48 + n) else Char.ofNat (87 + n)

/-- A character inside a text: quotes, backslashes and control characters are escaped. -/
def escapeChar (c : Char) : List Char :=
  if c = '"' then ['\\', '"']
  else if c = '\\' then ['\\', '\\']
  else if c = '\x08' then ['\\', 'b']
  else if c = '\t' then ['\\', 't']
  else if c = '\n' then ['\\', 'n']
  else if c = '\x0c' then ['\\', 'f']
  else if c = '\r' then ['\\', 'r']
  else if c.toNat < 0x20 then
    ['\\', 'u', '0', '0', hexDigit (c.toNat / 16), hexDigit (c.toNat % 16)]
  else [c]

def writeText (s : String) : List Char := '"' :: s.toList.flatMap escapeChar ++ ['"']

mutual

def chars : Data → List Char
  | .null => "null".toList
  | .bool b => if b then "true".toList else "false".toList
  | .int i => (toString i.toInt).toList
  | .uint u => (toString u.toNat).toList
  | .float x => (floatNotation.write x).toList
  | .string s => writeText s
  | .list items => '[' :: charsItems true items ++ [']']
  | .map entries => '\x7b' :: charsEntries true entries ++ ['\x7d']

/-- The characters of a list's items; a comma goes before each but the first. -/
def charsItems (first : Bool) : List Data → List Char
  | [] => []
  | d :: rest => (if first then [] else [',']) ++ chars d ++ charsItems false rest

/-- The characters of a map's entries; a comma goes before each but the first. -/
def charsEntries (first : Bool) : List (String × Data) → List Char
  | [] => []
  | (k, d) :: rest =>
    (if first then [] else [',']) ++ writeText k ++ ':' :: chars d ++ charsEntries false rest

end

def write (d : Data) : String := String.ofList (chars d)

end Troupe.Json
