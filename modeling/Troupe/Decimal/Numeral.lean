import Troupe.Binary64.Round

/-!
# Numerals

The texts that stand for numbers: integers with an optional sign, and floating-point numerals such as
`.5`, `5.`, `+1e3` or `inf`.  A reader accepts a whole text or refuses it; blanks and separators are
refused.
-/

namespace Troupe.Numeral

/-! ## Digits -/

/-- The value of a digit in bases up to sixteen, upper and lower case alike. -/
def digitValue? (c : Char) : Option Nat :=
  if '0' ≤ c ∧ c ≤ '9' then some (c.toNat - '0'.toNat)
  else if 'a' ≤ c ∧ c ≤ 'f' then some (c.toNat - 'a'.toNat + 10)
  else if 'A' ≤ c ∧ c ≤ 'F' then some (c.toNat - 'A'.toNat + 10)
  else none

def isDigit (c : Char) : Bool := '0' ≤ c ∧ c ≤ '9'

/-- The value of a text of digits continuing a number whose value so far is `acc`. -/
def digitsFrom? (base : Nat) : Nat → List Char → Option Nat
  | acc, [] => some acc
  | acc, c :: rest => do
    let d ← digitValue? c
    if d < base then digitsFrom? base (acc * base + d) rest else none

/-- The value of a non-empty text of digits. -/
def natural? (base : Nat) : List Char → Option Nat
  | [] => none
  | cs => digitsFrom? base 0 cs

/-! ## Integers -/

/-- A sign, if the text starts with one, and the rest: `true` stands for minus. -/
def splitSign : List Char → Option Bool × List Char
  | '+' :: rest => (some false, rest)
  | '-' :: rest => (some true, rest)
  | cs => (none, cs)

/-- The integer that a text of an optional sign and digits stands for. -/
def integer? (base : Nat) (cs : List Char) : Option Int :=
  let (sign, digits) := splitSign cs
  (natural? base digits).map fun n ↦ if sign = some true then -(n : Int) else n

def int64? (s : String) : Option Int64 := do
  let i ← integer? 10 s.toList
  if -0x8000000000000000 ≤ i ∧ i < 0x8000000000000000 then some (Int64.ofInt i) else none

/-- An unsigned 64-bit integer in decimal.  A minus sign is refused even before zero. -/
def uint64? (s : String) : Option UInt64 := do
  let (sign, digits) := splitSign s.toList
  if sign = some true then none
  else
    let n ← natural? 10 digits
    if n < 0x10000000000000000 then some (UInt64.ofNat n) else none

/-! ## Floating-point numerals -/

/-- The longest run of decimal digits at the start, and the rest. -/
def spanDigits (cs : List Char) : List Char × List Char := cs.span isDigit

/-- The exponent part of a numeral, up to the end of the text. -/
def exponent? : List Char → Option Int
  | [] => some 0
  | c :: rest => if c = 'e' ∨ c = 'E' then integer? 10 rest else none

/-- An unsigned numeral: digits on at least one side of an optional point, and an optional exponent. -/
def magnitude? (negative : Bool) (cs : List Char) : Option Binary64 := do
  let (whole, rest) := spanDigits cs
  let (fraction, rest) := match rest with
    | '.' :: rest => spanDigits rest
    | rest => ([], rest)
  let digits ← natural? 10 (whole ++ fraction)
  let e ← exponent? rest
  some (Binary64.ofDecimal negative digits (e - fraction.length))

/-- The letters of `cs` in lower case are those of `word`. -/
def spells (word : String) (cs : List Char) : Bool := cs.map Char.toLower == word.toList

/-- A floating-point numeral: an optional sign, then a magnitude, an infinity or a NaN, letters in any
case.  Values beyond the largest finite number are infinities. -/
def float? (s : String) : Option Binary64 :=
  let (sign, cs) := splitSign s.toList
  let negative := sign == some true
  if spells "inf" cs || spells "infinity" cs then some (Binary64.infinity negative)
  else if spells "nan" cs then some (Binary64.nan.withSign negative)
  else magnitude? negative cs

end Troupe.Numeral
