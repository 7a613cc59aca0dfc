import Troupe.Data.Basic
import Troupe.Decimal.Numeral

/-!
# Reading TOML numbers

Integers in four bases and floating-point numbers.  An underscore may stand between two digits, a decimal
number does not start with a superfluous zero, and integers must fit a signed word.
-/

namespace Troupe.Toml

def isDigitOf (base : Nat) (c : Char) : Bool := (Numeral.digitValue? c).any (· < base)

/-- Reads the digits after a first one, underscores between them left out.  An underscore without a digit
after it is an error. -/
def moreDigits? (base : Nat) : List Char → Option (List Char × List Char)
  | '_' :: c :: rest =>
    if isDigitOf base c then (moreDigits? base rest).map fun (ds, rest) ↦ (c :: ds, rest) else none
  | ['_'] => none
  | c :: rest =>
    if isDigitOf base c then (moreDigits? base rest).map fun (ds, rest) ↦ (c :: ds, rest)
    else some ([], c :: rest)
  | [] => some ([], [])

/-- Reads at least one digit, underscores between digits left out. -/
def someDigits? (base : Nat) : List Char → Option (List Char × List Char)
  | c :: rest =>
    if isDigitOf base c then (moreDigits? base rest).map fun (ds, rest) ↦ (c :: ds, rest) else none
  | [] => none

/-- Reads the whole part of a decimal number.  A zero at its start is all of it. -/
def whole? : List Char → Option (List Char × List Char)
  | '0' :: rest => some (['0'], rest)
  | cs => someDigits? 10 cs

def signed? (i : Int) : Option Data :=
  if -0x8000000000000000 ≤ i ∧ i < 0x8000000000000000 then some (.int (Int64.ofInt i)) else none

/-- Reads an integer in another base than ten, after its mark. -/
def based? (base : Nat) (cs : List Char) : Option (Data × List Char) := do
  let (ds, rest) ← someDigits? base cs
  let d ← signed? (← Numeral.natural? base ds)
  some (d, rest)

/-- Reads a fraction, if there is a point. -/
def fractionDigits? : List Char → Option (Option (List Char) × List Char)
  | '.' :: rest => (someDigits? 10 rest).map fun (ds, rest) ↦ (some ds, rest)
  | cs => some (none, cs)

def exponentOf? (cs : List Char) : Option (Option Int × List Char) :=
  match cs with
  | c :: rest =>
    if c = 'e' ∨ c = 'E' then do
      let (sign, rest) := Numeral.splitSign rest
      let (ds, rest) ← someDigits? 10 rest
      let e ← Numeral.natural? 10 ds
      some (some (if sign = some true then -(e : Int) else e), rest)
    else some (none, cs)
  | [] => some (none, cs)

/-- The floating-point number of a sign, digits and an exponent.  Only the negative side reaches its
infinity; a positive number that is too large is an error. -/
def float? (negative : Bool) (digits : List Char) (exponent : Int) : Option Data := do
  let x := Binary64.ofDecimal negative (← Numeral.natural? 10 digits) exponent
  if x.isInfinite && !negative then none else some (.float x)

def decimal? (negative : Bool) (cs : List Char) : Option (Data × List Char) := do
  let (whole, rest) ← whole? cs
  let (fraction, rest) ← fractionDigits? rest
  let (exponent, rest) ← exponentOf? rest
  if fraction.isNone && exponent.isNone then
    let n ← Numeral.natural? 10 whole
    let d ← signed? (if negative then -(n : Int) else n)
    some (d, rest)
  else
    let fraction := fraction.getD []
    let d ← float? negative (whole ++ fraction) (exponent.getD 0 - fraction.length)
    some (d, rest)

/-- Reads a number after its sign, which may also be infinite or none at all. -/
def unsigned? (negative : Bool) : List Char → Option (Data × List Char)
  | 'i' :: 'n' :: 'f' :: rest => some (.float (.infinity negative), rest)
  | 'n' :: 'a' :: 'n' :: rest => some (.float (Binary64.nan.withSign negative), rest)
  | cs => decimal? negative cs

def number? : List Char → Option (Data × List Char)
  | '0' :: 'x' :: rest => based? 16 rest
  | '0' :: 'o' :: rest => based? 8 rest
  | '0' :: 'b' :: rest => based? 2 rest
  | '-' :: rest => unsigned? true rest
  | '+' :: rest => unsigned? false rest
  | cs => unsigned? false cs

end Troupe.Toml
