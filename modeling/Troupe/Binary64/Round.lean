import Troupe.Binary64.Basic

/-!
# Rounding to nearest

`Binary64.ofRatio` rounds a ratio of natural numbers to the nearest floating-point number, a tie going
to the even significand.  Every arithmetic operation is an exact computation on integers followed by one
such rounding, so each result is the correctly rounded one.
-/

namespace Troupe

/-- The quotient of two naturals rounded to the nearest integer, a tie to the even neighbour. -/
def roundDiv (num den : Nat) : Nat :=
  let q := num / den
  let twice := 2 * (num % den)
  if twice < den then q
  else if den < twice then q + 1
  else q + q % 2

namespace Binary64

/-- The ratio `num / den` scaled by `2 ^ k`: `num · 2 ^ k` and `den` when `k` is positive, `num` and
`den · 2 ^ -k` otherwise. -/
def scaleRatio (num den : Nat) (k : Int) : Nat × Nat :=
  (num <<< k.toNat, den <<< (-k).toNat)

/-- The exponent of the largest power of two at most `num / den`, for a positive ratio. -/
def floorLog2 (num den : Nat) : Int :=
  let e : Int := (num.log2 : Int) - den.log2
  let (n, d) := scaleRatio num den (-e)
  if d ≤ n then e else e - 1

/-- The ratio `num / den` rounded to a multiple of the unit that a format with `digits` bits of
significand and least unit `2 ^ lowest` gives to numbers of its size: the multiple, and the exponent of
the unit. -/
def roundToUnit (digits : Nat) (lowest : Int) (num den : Nat) : Nat × Int :=
  let unit := max (floorLog2 num den - (digits - 1)) lowest
  let (n, d) := scaleRatio num den (-unit)
  (roundDiv n d, unit)

/-- The floating-point number nearest to `± num / den`.  A ratio beyond the largest finite number gives
an infinity, and zero keeps the sign. -/
def ofRatio (negative : Bool) (num den : Nat) : Binary64 :=
  if num = 0 then zero negative
  else
    let (n, unit) := roundToUnit 53 (-1074) num den
    let magnitude := (unit + 1074).toNat * 0x10000000000000 + n
    ofMagnitude negative (min magnitude infinite)

/-- The floating-point number nearest to `± n · 2 ^ k`. -/
def ofScaled (negative : Bool) (n : Nat) (k : Int) : Binary64 :=
  let (num, den) := scaleRatio n 1 k
  ofRatio negative num den

def ofNat (n : Nat) : Binary64 := ofRatio false n 1

def ofInt (i : Int) : Binary64 := ofRatio (i < 0) i.natAbs 1

/-- The floating-point number nearest to `± digits · 10 ^ exponent`.  Exponents far outside the range of
the format are decided without computing the power. -/
def ofDecimal (negative : Bool) (digits : Nat) (exponent : Int) : Binary64 :=
  if digits = 0 then zero negative
  else if 400 < exponent then infinity negative
  else if exponent < -400 - digits.log2 then zero negative
  else ofRatio negative (digits * Nat.pow 10 exponent.toNat) (Nat.pow 10 (-exponent).toNat)

/-! ## Arithmetic -/

/-- The exact value of a finite number as a multiple of `2 ^ -1074`. -/
def units (x : Binary64) : Int :=
  let n : Nat := x.significand <<< (x.scale + 1074).toNat
  if x.isNegative then -n else n

/-- The sum, rounded once.  Opposite infinities have none, and an exact zero is positive unless both
terms are negative. -/
def add (x y : Binary64) : Binary64 :=
  if x.isNaN || y.isNaN then nan
  else if x.isInfinite then
    if y.isInfinite && x.isNegative != y.isNegative then nan else x
  else if y.isInfinite then y
  else
    let sum := x.units + y.units
    if sum = 0 then zero (x.isNegative && y.isNegative)
    else ofScaled (sum < 0) sum.natAbs (-1074)

def sub (x y : Binary64) : Binary64 := x.add y.negate

def mul (x y : Binary64) : Binary64 :=
  let negative := x.isNegative != y.isNegative
  if x.isNaN || y.isNaN then nan
  else if x.isInfinite || y.isInfinite then
    if x.isZero || y.isZero then nan else infinity negative
  else ofScaled negative (x.significand * y.significand) (x.scale + y.scale)

def div (x y : Binary64) : Binary64 :=
  let negative := x.isNegative != y.isNegative
  if x.isNaN || y.isNaN then nan
  else if x.isInfinite then if y.isInfinite then nan else infinity negative
  else if y.isInfinite then zero negative
  else if y.isZero then if x.isZero then nan else infinity negative
  else
    let (num, den) := scaleRatio x.significand y.significand (x.scale - y.scale)
    ofRatio negative num den

/-! ## Other widths -/

/-- The number rounded to the 32-bit format and widened again. -/
def narrow (x : Binary64) : Binary64 :=
  if !x.isFinite || x.isZero then x
  else
    let (num, den) := scaleRatio x.significand 1 x.scale
    let (n, unit) := roundToUnit 24 (-149) num den
    if 128 ≤ unit + (n.log2 : Int) then infinity x.isNegative else ofScaled x.isNegative n unit

/-- The number that a 32-bit word stands for.  A NaN keeps the top of its payload and becomes quiet. -/
def ofSingle (word : UInt32) : Binary64 :=
  let n := word.toNat
  let negative := decide (0x80000000 ≤ n)
  let exponent : Nat := n / 0x800000 % 0x100
  let fraction := n % 0x800000
  if exponent = 255 then
    if fraction = 0 then infinity negative
    else ofMagnitude negative (infinite + (fraction ||| 0x400000) * 0x20000000)
  else if exponent = 0 then ofScaled negative fraction (-149)
  else ofScaled negative (0x800000 + fraction) ((exponent : Int) - 150)

/-- The nearest integer of a finite number, a tie going away from zero. -/
def roundToInt (x : Binary64) : Int :=
  let (num, den) := scaleRatio x.significand 1 x.scale
  let n : Nat := (2 * num + den) / (2 * den)
  if x.isNegative then -(n : Int) else n

/-- The nearest integer, a tie going away from zero, held inside the bounds; a NaN counts as zero. -/
def roundWithin (low high : Int) (x : Binary64) : Int :=
  if x.isNaN then 0
  else if x.isInfinite then if x.isNegative then low else high
  else max low (min high x.roundToInt)

end Binary64

end Troupe
