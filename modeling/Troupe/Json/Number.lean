import Troupe.Data.Basic
import Troupe.Decimal.Numeral

/-!
# Reading JSON numbers

Integers that fit 64 bits are read exactly.  Any other number is read through a significand of 64 bits:
digits that no longer fit are counted where they precede the point and dropped where they follow it, and
the significand is then multiplied or divided by a power of ten, with one rounding for the significand,
one for the power and one for the result.
-/

namespace Troupe.Json

/-- The first number that a significand cannot hold. -/
def significandLimit : Nat := 0x10000000000000000

/-- Takes digits into a significand while they fit: the significand, the number of digits taken, and the
rest of the text. -/
def gather (significand : Nat) : List Char → Nat × Nat × List Char
  | [] => (significand, 0, [])
  | c :: rest =>
    if Numeral.isDigit c then
      let next := significand * 10 + (c.toNat - '0'.toNat)
      if next < significandLimit then
        let (s, n, rest) := gather next rest
        (s, n + 1, rest)
      else (significand, 0, c :: rest)
    else (significand, 0, c :: rest)

def startsWithDigit : List Char → Bool
  | c :: _ => Numeral.isDigit c
  | [] => false

/-- Multiplies or divides by powers of ten, at most `10 ^ 308` at a time, until the exponent is used up.
There is no result beyond the largest finite number. -/
def applyExponent : Nat → Binary64 → Int → Option Binary64
  | 0, _, _ => none
  | fuel + 1, x, e =>
    if e.natAbs ≤ 308 then
      let power := Binary64.ofDecimal false 1 e.natAbs
      if 0 ≤ e then
        let y := x.mul power
        if y.isInfinite then none else some y
      else some (x.div power)
    else if x.isZero then some x
    else if 0 ≤ e then none
    else applyExponent fuel (x.div (Binary64.ofDecimal false 1 308)) (e + 308)

/-- The number `± significand · 10 ^ exponent`.  Three divisions by `10 ^ 308` bring every significand to
zero, so four steps are always enough. -/
def assemble (negative : Bool) (significand : Nat) (exponent : Int) : Option Data :=
  (applyExponent 4 (Binary64.ofNat significand) exponent).map fun x ↦ .float (x.withSign negative)

/-- The exponents that are read; larger ones decide the number by their sign alone. -/
def exponentLimit : Nat := 0x80000000

/-- Reads an exponent, if there is one, and assembles the number. -/
def finish (negative : Bool) (significand : Nat) (exponent : Int) :
    List Char → Option (Data × List Char)
  | c :: rest =>
    if c = 'e' ∨ c = 'E' then
      let (sign, rest) := Numeral.splitSign rest
      let (digits, rest) := Numeral.spanDigits rest
      (Numeral.natural? 10 digits).bind fun e ↦
        if e < exponentLimit then
          let e : Int := if sign = some true then exponent - e else exponent + e
          (assemble negative significand e).map (·, rest)
        else if significand ≠ 0 ∧ sign ≠ some true then none
        else some (.float (Binary64.zero negative), rest)
    else (assemble negative significand exponent).map (·, c :: rest)
  | [] => (assemble negative significand exponent).map (·, [])

/-- Reads the digits after a point; there must be one. -/
def fraction (negative : Bool) (significand : Nat) (exponent : Int) (cs : List Char) :
    Option (Data × List Char) :=
  let (significand, n, rest) := gather significand cs
  if n = 0 ∧ !startsWithDigit rest then none
  else finish negative significand (exponent - n) (Numeral.spanDigits rest).2

/-- The integer of a sign and a significand; minus zero is a floating-point number. -/
def integer (negative : Bool) (significand : Nat) : Data :=
  if negative then
    if significand = 0 ∨ 0x8000000000000000 < significand then .float ((Binary64.ofNat significand).negate)
    else .int (Int64.ofInt (-(significand : Int)))
  else .ofUInt64 (UInt64.ofNat significand)

/-- Reads an unsigned number after its sign.  A leading zero stands alone before a point or an exponent. -/
def magnitude (negative : Bool) (cs : List Char) : Option (Data × List Char) :=
  let (significand, n, rest) := match cs with
    | '0' :: rest => (0, 1, rest)
    | cs => gather 0 cs
  if n = 0 then none
  else if n = 1 ∧ significand = 0 ∧ startsWithDigit rest then none
  else
    let (dropped, rest) := Numeral.spanDigits rest
    match rest with
    | '.' :: rest => fraction negative significand dropped.length rest
    | c :: _ =>
      if dropped = [] ∧ c ≠ 'e' ∧ c ≠ 'E' then some (integer negative significand, rest)
      else finish negative significand dropped.length rest
    | [] =>
      if dropped = [] then some (integer negative significand, [])
      else finish negative significand dropped.length []

def number : List Char → Option (Data × List Char)
  | '-' :: rest => magnitude true rest
  | cs => magnitude false cs

end Troupe.Json
