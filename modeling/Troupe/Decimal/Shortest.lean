import Troupe.Binary64.Round

/-!
# Shortest decimals

`Decimal.shortest` selects the decimal with the fewest digits that reads back to a given positive finite
number, and among those the one nearest to it.  The reals that round to a number form an interval that
contains its ends exactly when the significand is even; `Binary64.readsBack` tests a decimal against that
interval by cross-multiplying naturals.
-/

namespace Troupe

/-- The decimal number `digits · 10 ^ exponent`. -/
@[ext] structure Decimal where
  digits : Nat
  /-- the power of ten that the last digit counts -/
  exponent : Int
deriving DecidableEq, Repr

inductive Tie where
  /-- the decimal whose last digit is even -/
  | toEven
  | upward
deriving DecidableEq, Repr

namespace Binary64

/-- The gap to the number below is half the gap to the number above. -/
def narrowBelow (x : Binary64) : Bool := x.fraction == 0 && 1 < x.exponentField

/-- Compares `a · 10 ^ i` with `n · 2 ^ j` exactly. -/
def compareScaled (a : Nat) (i : Int) (n : Nat) (j : Int) : Ordering :=
  compare ((a * Nat.pow 10 i.toNat) <<< (-j).toNat) ((n * Nat.pow 10 (-i).toNat) <<< j.toNat)

/-- The decimal lies among the reals that round to the magnitude of `x`. -/
def readsBack (x : Binary64) (d : Decimal) : Bool :=
  let low := 4 * x.significand - if x.narrowBelow then 1 else 2
  let high := 4 * x.significand + 2
  let closed := x.significand % 2 == 0
  let fromLow := compareScaled d.digits d.exponent low (x.scale - 2)
  let fromHigh := compareScaled d.digits d.exponent high (x.scale - 2)
  (fromLow == .gt || (closed && fromLow == .eq)) && (fromHigh == .lt || (closed && fromHigh == .eq))

/-- The least `k` with magnitude below `10 ^ k`, found upwards from a lower estimate. -/
def decimalPoint (x : Binary64) : Int :=
  let estimate : Int := ((x.significand.log2 : Int) + x.scale) * 30103 / 100000 - 1
  search estimate 4
where
  search (k : Int) : Nat → Int
    | 0 => k
    | fuel + 1 =>
      if compareScaled 1 k x.significand x.scale == .gt then k else search (k + 1) fuel

end Binary64

namespace Decimal

/-- The magnitude of `x` as a multiple of `10 ^ unit`, rounded down. -/
def floorOn (x : Binary64) (unit : Int) : Nat :=
  ((x.significand * Nat.pow 10 (-unit).toNat) <<< x.scale.toNat) / (Nat.pow 10 unit.toNat <<< (-x.scale).toNat)

/-- The neighbour of `x` on the grid of multiples of `10 ^ unit` that reads back, the nearer one if both
do. -/
def onGrid? (tie : Tie) (x : Binary64) (unit : Int) : Option Decimal :=
  let below := floorOn x unit
  let lower : Decimal := ⟨below, unit⟩
  let upper : Decimal := ⟨below + 1, unit⟩
  match x.readsBack lower, x.readsBack upper with
  | false, false => none
  | true, false => some lower
  | false, true => some upper
  | true, true =>
    match Binary64.compareScaled (2 * below + 1) unit (2 * x.significand) x.scale, tie with
    | .gt, _ => some lower
    | .lt, _ => some upper
    | .eq, .upward => some upper
    | .eq, .toEven => some (if below % 2 = 0 then lower else upper)

/-- The exact value of `x`, which is a decimal because two divides ten. -/
def exact (x : Binary64) : Decimal :=
  ⟨(x.significand * Nat.pow 5 (-x.scale).toNat) <<< x.scale.toNat, min x.scale 0⟩

/-- Moves the zeros at the end of the digits into the exponent. -/
def strip (d : Decimal) : Decimal :=
  go d.digits d.digits d.exponent
where
  /-- Removes one zero at a time. -/
  go : Nat → Nat → Int → Decimal
    | 0, n, e => ⟨n, e⟩
    | fuel + 1, n, e => if n % 10 = 0 then go fuel (n / 10) (e + 1) else ⟨n, e⟩

/-- The shortest decimal that reads back to the positive finite number `x`, the nearest of those. -/
def shortest (tie : Tie) (x : Binary64) : Decimal :=
  let point := x.decimalPoint
  let found := (List.range 17).findSome? fun (n : Nat) ↦ onGrid? tie x (point - (n + 1))
  (found.getD (exact x)).strip

def text (d : Decimal) : String := toString d.digits

def leading (d : Decimal) : Int := d.exponent + (d.text.length - 1)

end Decimal

end Troupe
