import Troupe.Decimal.Shortest

/-!
# Notations of floating-point numbers

A `Notation` states how an output writes a number: which exponents are written positionally, how an
exponent is marked, and the texts of the numbers that have no digits.  `Notation.write` applies it to the
shortest decimal.
-/

namespace Troupe

/-- The decisions of an output about the text of floating-point numbers. -/
structure Notation where
  /-- the least exponent of the leading digit that is written positionally, if there is a least one -/
  positionalFrom : Option Int
  /-- the least exponent above those written positionally, if there is one -/
  positionalBelow : Option Int
  /-- a whole number written positionally ends in `.0` -/
  pointZero : Bool
  /-- a positive exponent carries its sign -/
  plusSign : Bool
  /-- which of two equally near decimals is written -/
  tie : Tie
  nan : String
  infinity : String
  minusInfinity : String

namespace Notation

/-- A decimal whose leading digit has exponent `e` is written positionally. -/
def isPositional (n : Notation) (e : Int) : Bool :=
  n.positionalFrom.all (· ≤ e) && n.positionalBelow.all (e < ·)

def zeros (k : Nat) : String := String.ofList (List.replicate k '0')

def positional (n : Notation) (d : Decimal) : String :=
  let text := d.text
  let whole := d.exponent + text.length
  if 0 ≤ d.exponent then
    text ++ zeros d.exponent.toNat ++ if n.pointZero then ".0" else ""
  else if 0 < whole then
    String.ofList (text.toList.take whole.toNat) ++ "." ++ String.ofList (text.toList.drop whole.toNat)
  else "0." ++ zeros (-whole).toNat ++ text

/-- The decimal with one digit before its point and an exponent. -/
def scientific (n : Notation) (d : Decimal) : String :=
  let digits := d.text.toList
  let fraction := if digits.length ≤ 1 then "" else "." ++ String.ofList (digits.drop 1)
  let e := d.leading
  let mark := if 0 < e && n.plusSign then "e+" else "e"
  String.ofList (digits.take 1) ++ fraction ++ mark ++ toString e

def writeDecimal (n : Notation) (d : Decimal) : String :=
  if n.isPositional d.leading then n.positional d else n.scientific d

def write (n : Notation) (x : Binary64) : String :=
  if x.isNaN then n.nan
  else if x.isInfinite then if x.isNegative then n.minusInfinity else n.infinity
  else
    let magnitude :=
      if x.isZero then n.positional ⟨0, 0⟩ else n.writeDecimal (Decimal.shortest n.tie x)
    if x.isNegative then "-" ++ magnitude else magnitude

end Notation

end Troupe
