import Troupe.Data.Basic
import Troupe.Decimal.Numeral

/-!
# What plain scalars stand for

A scalar without quotes is a null, a truth value, an integer, a floating-point number or a text, decided
by its characters alone.  `Plain.ofText` decides; the writer asks it which texts need quotes, and the
reader asks it what it has read.
-/

namespace Troupe.Yaml

inductive Plain where
  | null
  | bool (b : Bool)
  /-- an integer of at most 128 bits -/
  | integer (i : Int)
  | float (x : Binary64)
  /-- a text; `digits` says that it looks like a number with leading zeros -/
  | text (digits : Bool)

def isNull (s : String) : Bool := s == "null" || s == "Null" || s == "NULL" || s == "~"

def bool? (s : String) : Option Bool :=
  if s == "true" || s == "True" || s == "TRUE" then some true
  else if s == "false" || s == "False" || s == "FALSE" then some false
  else none

/-- Digits with a leading zero, which are a text. -/
def hasLeadingZero (cs : List Char) : Bool :=
  match (Numeral.splitSign cs).2 with
  | '0' :: rest => rest != [] && rest.all Numeral.isDigit
  | _ => false

/-- The magnitude of an integer: hexadecimal, octal, binary or decimal digits. -/
def magnitude? : List Char → Option Nat
  | '0' :: 'x' :: digits => Numeral.natural? 16 digits
  | '0' :: 'o' :: digits => Numeral.natural? 8 digits
  | '0' :: 'b' :: digits => Numeral.natural? 2 digits
  | digits => if hasLeadingZero digits then none else Numeral.natural? 10 digits

/-- The integer that a scalar spells, if it has at most 128 bits. -/
def integer? (cs : List Char) : Option Int :=
  let (sign, rest) := Numeral.splitSign cs
  (magnitude? rest).bind fun n ↦
    if sign = some true then if n ≤ 0x80000000000000000000000000000000 then some (-(n : Int)) else none
    else if n < 0x100000000000000000000000000000000 then some n else none

/-- The floating-point number that a scalar spells.  A numeral beyond the largest finite number spells
none, nor do the words for infinities and NaNs without their point. -/
def float? (s : String) : Option Binary64 :=
  let unsigned := match s.toList with
    | '+' :: rest => String.ofList rest
    | _ => s
  if unsigned == ".inf" || unsigned == ".Inf" || unsigned == ".INF" then some (Binary64.infinity false)
  else if s == "-.inf" || s == "-.Inf" || s == "-.INF" then some (Binary64.infinity true)
  else if s == ".nan" || s == ".NaN" || s == ".NAN" then some Binary64.nan
  else (Numeral.float? s).bind fun x ↦ if x.isFinite then some x else none

def Plain.ofText (s : String) : Plain :=
  if s == "" || isNull s then .null
  else
    match bool? s with
    | some b => .bool b
    | none =>
      match integer? s.toList with
      | some i => .integer i
      | none =>
        if hasLeadingZero s.toList then .text true
        else
          match float? s with
          | some x => .float x
          | none => .text false

end Troupe.Yaml
