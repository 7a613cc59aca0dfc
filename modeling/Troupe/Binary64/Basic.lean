/-!
# Binary floating-point numbers

A `Binary64` is the 64-bit word of the binary interchange format: a sign, an eleven-bit exponent and a
fraction of fifty-two bits.  Keeping the word means that equality of numbers is decidable, that a NaN
keeps its payload, and that every operation is a function on natural numbers.

Two relations compare numbers.  Equality `=` compares words.  `Binary64.equals`, `Binary64.less` and
`Binary64.atMost` compare values: the two zeros are equal, and every comparison with a NaN fails.
-/

namespace Troupe

/-- A binary floating-point number, held as its 64-bit word. -/
@[ext] structure Binary64 where
  /-- the word: sign, exponent and fraction from the top bit down -/
  bits : UInt64
deriving DecidableEq, Inhabited, Repr

namespace Binary64

/-! ## The fields of the word -/

def isNegative (x : Binary64) : Bool := 0x8000000000000000 ≤ x.bits.toNat

/-- The word without its sign bit, which orders the magnitudes. -/
def magnitude (x : Binary64) : Nat := x.bits.toNat % 0x8000000000000000

def exponentField (x : Binary64) : Nat := x.magnitude / 0x10000000000000

/-- The fraction, without the leading bit that normal numbers leave out. -/
def fraction (x : Binary64) : Nat := x.magnitude % 0x10000000000000

/-- The magnitude of the infinities; larger ones are NaNs. -/
def infinite : Nat := 2047 * 0x10000000000000

def isNaN (x : Binary64) : Bool := infinite < x.magnitude

def isInfinite (x : Binary64) : Bool := x.magnitude == infinite

def isFinite (x : Binary64) : Bool := x.magnitude < infinite

def isZero (x : Binary64) : Bool := x.magnitude == 0

/-- The significand: a finite number is `± significand · 2 ^ scale`. -/
def significand (x : Binary64) : Nat :=
  if x.exponentField = 0 then x.fraction else 0x10000000000000 + x.fraction

/-- The power of two that the significand counts. -/
def scale (x : Binary64) : Int :=
  if x.exponentField = 0 then -1074 else (x.exponentField : Int) - 1075

/-! ## Building words -/

def ofMagnitude (negative : Bool) (magnitude : Nat) : Binary64 :=
  ⟨UInt64.ofNat (magnitude + if negative then 0x8000000000000000 else 0)⟩

def infinity (negative : Bool) : Binary64 := ofMagnitude negative infinite

def zero (negative : Bool) : Binary64 := ofMagnitude negative 0

def nan : Binary64 := ⟨0x7FF8000000000000⟩

def negate (x : Binary64) : Binary64 := ofMagnitude (!x.isNegative) x.magnitude

/-- The same number with its sign reversed if `negative` holds. -/
def withSign (negative : Bool) (x : Binary64) : Binary64 := if negative then x.negate else x

/-! ## Comparison of values -/

/-- The position of a number on the line: negative numbers count downwards, and the two zeros meet. -/
def rank (x : Binary64) : Int :=
  if x.isNegative then -(x.magnitude : Int) else x.magnitude

def ordered (x y : Binary64) : Bool := !x.isNaN && !y.isNaN

def equals (x y : Binary64) : Bool := ordered x y && x.rank == y.rank

def less (x y : Binary64) : Bool := ordered x y && x.rank < y.rank

def atMost (x y : Binary64) : Bool := ordered x y && x.rank ≤ y.rank

@[simp] theorem equals_self (x : Binary64) : x.equals x = !x.isNaN := by
  simp [equals, ordered]

theorem not_equals_of_isNaN {x : Binary64} (y : Binary64) (h : x.isNaN = true) :
    x.equals y = false := by
  simp [equals, ordered, h]

end Binary64

end Troupe
