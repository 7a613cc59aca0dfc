import Troupe.Data.Text
import Troupe.Decimal.Numeral

/-!
# Scalars as settings

A setting may be written as any scalar that makes sense: numbers and truth values stand for each other, and
texts stand for what they spell.  Lists, tables and nulls stand for nothing else.
-/

namespace Troupe.Settings

/-- Numbers are written positionally at every size, and a whole number has no point. -/
def floatNotation : Notation := { Data.floatNotation with pointZero := false }

def text? : Data → Option String
  | .string s => some s
  | .bool b => some (if b then "true" else "false")
  | .int i => some (toString i.toInt)
  | .uint u => some (toString u.toNat)
  | .float x => some (floatNotation.write x)
  | _ => none

/-- The truth value of a word, letters in any case. -/
def word? (s : String) : Option Bool :=
  let w := s.map Char.toLower
  if w = "true" ∨ w = "on" ∨ w = "yes" then some true
  else if w = "false" ∨ w = "off" ∨ w = "no" then some false
  else none

/-- The word that a scalar stands for.  Floating-point numbers are rounded, a half away from zero, and held
inside the bounds; negative integers stand for none. -/
def unsigned? : Data → Option UInt64
  | .int i => if 0 ≤ i.toInt then some (UInt64.ofInt i.toInt) else none
  | .uint u => some u
  | .float x => some (UInt64.ofInt (x.roundWithin 0 (0x10000000000000000 - 1)))
  | .bool b => some (if b then 1 else 0)
  | .string s =>
    match word? s with
    | some b => some (if b then 1 else 0)
    | none => Numeral.uint64? s
  | _ => none

/-- The truth value that a scalar stands for: numbers other than zero are true. -/
def truth? : Data → Option Bool
  | .bool b => some b
  | .int i => some (i != 0)
  | .uint u => some (u != 0)
  | .float x => some (!x.isZero)
  | .string s => if s = "1" then some true else if s = "0" then some false else word? s
  | _ => none

end Troupe.Settings
