import Troupe.Data.Basic
import Troupe.Decimal.Notation

/-!
# The canonical text of data

`Data.text` writes a tree on one line: texts in double quotes with `"` and `\` escaped, lists in brackets
with `, ` between items, maps in braces with `:` after each key.  Floating-point numbers are written
positionally with a point, so that they never read as integers.
-/

namespace Troupe

namespace Data

/-- Numbers are written with the fewest digits that identify them, positionally at every size, and a
whole number ends in `.0`. -/
def floatNotation : Notation where
  positionalFrom := none
  positionalBelow := none
  pointZero := true
  plusSign := false
  tie := .upward
  nan := "NaN"
  infinity := "inf"
  minusInfinity := "-inf"

/-- The characters of a quoted text: quotes and backslashes are escaped, and nothing else is. -/
def quotedChars : List Char → List Char
  | [] => []
  | c :: rest => if c = '"' ∨ c = '\\' then '\\' :: c :: quotedChars rest else c :: quotedChars rest

def quoted (s : String) : String := "\"" ++ String.ofList (quotedChars s.toList) ++ "\""

mutual

def text : Data → String
  | .null => "null"
  | .bool b => if b then "true" else "false"
  | .int i => toString i.toInt
  | .uint u => toString u.toNat
  | .float x => floatNotation.write x
  | .string s => quoted s
  | .list items => "[" ++ textItems true items ++ "]"
  | .map entries => "\x7b" ++ textEntries true entries ++ "\x7d"

/-- The texts of a list's items; a comma goes before each but the first. -/
def textItems (first : Bool) : List Data → String
  | [] => ""
  | d :: rest => (if first then "" else ", ") ++ text d ++ textItems false rest

/-- The texts of a map's entries; a comma goes before each but the first. -/
def textEntries (first : Bool) : List (String × Data) → String
  | [] => ""
  | (k, d) :: rest =>
    (if first then "" else ", ") ++ quoted k ++ ":" ++ text d ++ textEntries false rest

end

end Data

end Troupe
