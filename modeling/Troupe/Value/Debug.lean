import Troupe.Outcome
import Troupe.Text.Printable
import Troupe.Value.Heap

/-!
# The constructor form of values

A second text of values, for diagnostics, which names the form of every part: `Int(1)`, `String("x")`,
`List([Int(1)])`.  Texts are escaped so that every character shown is visible.
-/

namespace Troupe

/-- Numbers are written with the fewest digits that identify them, positionally from `10 ^ -4` and below
`10 ^ 16`, otherwise with an exponent; a whole number ends in `.0`. -/
def debugNotation : Notation where
  positionalFrom := some (-4)
  positionalBelow := some 16
  pointZero := true
  plusSign := false
  tie := .upward
  nan := "NaN"
  infinity := "inf"
  minusInfinity := "-inf"

namespace Data

mutual

def debug : Data → String
  | .null => "Null"
  | .bool b => "Bool(" ++ (if b then "true" else "false") ++ ")"
  | .int i => "Int(" ++ toString i.toInt ++ ")"
  | .uint u => "UInt(" ++ toString u.toNat ++ ")"
  | .float x => "Float(" ++ debugNotation.write x ++ ")"
  | .string s => "String(" ++ Text.visible s ++ ")"
  | .list items => "List([" ++ debugItems true items ++ "])"
  | .map entries => "Map(\x7b" ++ debugEntries true entries ++ "\x7d)"

def debugItems (first : Bool) : List Data → String
  | [] => ""
  | d :: rest => (if first then "" else ", ") ++ debug d ++ debugItems false rest

def debugEntries (first : Bool) : List (String × Data) → String
  | [] => ""
  | (k, d) :: rest =>
    (if first then "" else ", ") ++ Text.visible k ++ ": " ++ debug d ++ debugEntries false rest

end

end Data

def Heap.debug (h : Heap) (v : Value) : String := (h.read v).debug

def Heap.debugOutcome (h : Heap) : Outcome Value → String
  | .undefined => "Undefined"
  | .value v => "Value(" ++ h.debug v ++ ")"
  | .error m => "Error(Error \x7b message: " ++ Text.visible m ++ " \x7d)"

def Heap.debugPromise (h : Heap) (o : Outcome Value) : String :=
  "Promise \x7b outcome: " ++ h.debugOutcome o ++ " \x7d"

def Heap.textOutcome (h : Heap) (o : Outcome Value) : String := o.text h.text Data.quoted

end Troupe
