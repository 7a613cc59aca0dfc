import Mathlib.Algebra.Order.Ring.Nat
import Mathlib.Tactic.Ring
import Troupe.Binary64.Round

/-!
# Sums and differences of floating-point numbers

A sum is a NaN exactly if a term is one or the terms are opposite infinities (`Binary64.isNaN_add`).  A sum of
numbers that are not negative is not negative, however it is rounded, and neither is the difference of such a
number and a smaller one (`Binary64.rank_add_nonneg`, `Binary64.rank_sub_nonneg`): larger numbers are larger
multiples of the least unit.
-/

namespace Troupe.Binary64

variable {x y : Binary64}

/-! ## Words -/

theorem magnitude_lt (x : Binary64) : x.magnitude < 2 ^ 63 := Nat.mod_lt _ (by decide)

theorem toNat_ofMagnitude (negative : Bool) {m : Nat} (small : m < 2 ^ 63) :
    (ofMagnitude negative m).bits.toNat = m + if negative then 2 ^ 63 else 0 := by
  refine UInt64.toNat_ofNat_of_lt' ?_
  rw [UInt64.size]
  split <;> omega

@[simp] theorem magnitude_ofMagnitude (negative : Bool) {m : Nat} (small : m < 2 ^ 63) :
    (ofMagnitude negative m).magnitude = m := by
  rw [magnitude, toNat_ofMagnitude negative small]
  cases negative <;> simp only [Bool.false_eq_true, if_false, if_true] <;> omega

@[simp] theorem isNegative_ofMagnitude (negative : Bool) {m : Nat} (small : m < 2 ^ 63) :
    (ofMagnitude negative m).isNegative = negative := by
  rw [isNegative, toNat_ofMagnitude negative small]
  cases negative with
  | false => simpa using small
  | true => simp

theorem infinite_lt : infinite < 2 ^ 63 := by decide

@[simp] theorem magnitude_negate (x : Binary64) : x.negate.magnitude = x.magnitude :=
  magnitude_ofMagnitude _ x.magnitude_lt

@[simp] theorem isNegative_negate (x : Binary64) : x.negate.isNegative = !x.isNegative :=
  isNegative_ofMagnitude _ x.magnitude_lt

theorem isNaN_negate (x : Binary64) : x.negate.isNaN = x.isNaN := by rw [isNaN, magnitude_negate, isNaN]

theorem isInfinite_negate (x : Binary64) : x.negate.isInfinite = x.isInfinite := by
  rw [isInfinite, magnitude_negate, isInfinite]

theorem isNaN_nan : nan.isNaN = true := by decide

/-- Rounding ends at the infinities. -/
theorem isNaN_ofMagnitude_min (negative : Bool) (m : Nat) :
    (ofMagnitude negative (min m infinite)).isNaN = false := by
  have small : min m infinite < 2 ^ 63 := Nat.lt_of_le_of_lt (Nat.min_le_right _ _) infinite_lt
  rw [isNaN, magnitude_ofMagnitude negative small]
  exact decide_eq_false (Nat.not_lt.mpr (Nat.min_le_right _ _))

theorem isNaN_ofRatio (negative : Bool) (num den : Nat) : (ofRatio negative num den).isNaN = false := by
  rw [ofRatio]
  split
  · rw [zero, isNaN, magnitude_ofMagnitude negative (by decide)]
    rfl
  · exact isNaN_ofMagnitude_min negative _

theorem isNegative_ofRatio (negative : Bool) (num den : Nat) :
    (ofRatio negative num den).isNegative = negative := by
  rw [ofRatio]
  split
  · exact isNegative_ofMagnitude negative (by decide)
  · exact isNegative_ofMagnitude negative (Nat.lt_of_le_of_lt (Nat.min_le_right _ _) infinite_lt)

/-! ## The line -/

theorem atMost_iff : x.atMost y = true ↔ x.isNaN = false ∧ y.isNaN = false ∧ x.rank ≤ y.rank := by
  simp [atMost, ordered, and_assoc]

theorem less_iff : x.less y = true ↔ x.isNaN = false ∧ y.isNaN = false ∧ x.rank < y.rank := by
  simp [less, ordered, and_assoc]

/-- Of two numbers one is smaller, or it is not. -/
theorem less_eq_false_iff (left : x.isNaN = false) (right : y.isNaN = false) :
    x.less y = false ↔ y.atMost x = true := by
  simp [less, atMost, ordered, left, right]

theorem atMost_eq_false_iff (left : x.isNaN = false) (right : y.isNaN = false) :
    x.atMost y = false ↔ y.less x = true := by
  simp [less, atMost, ordered, left, right]

@[simp] theorem rank_zero (negative : Bool) : (zero negative).rank = 0 := by cases negative <;> decide

@[simp] theorem isNaN_zero (negative : Bool) : (zero negative).isNaN = false := by
  cases negative <;> decide

theorem rank_nonneg_of_not_isNegative (positive : x.isNegative = false) : 0 ≤ x.rank := by
  rw [rank, positive]
  exact Int.natCast_nonneg _

/-- Of the words with the sign only that of zero is not below zero. -/
theorem rank_eq_magnitude (high : 0 ≤ x.rank) : x.rank = x.magnitude := by
  by_cases negative : x.isNegative = true
  · rw [rank, if_pos negative] at high ⊢
    omega
  · rw [rank, if_neg negative]

theorem not_isNegative_of_rank_pos (above : 0 < x.rank) : x.isNegative = false := by
  refine Bool.eq_false_of_not_eq_true fun negative ↦ ?_
  rw [rank, if_pos negative] at above
  omega

/-- Of the two infinities only one is not below zero. -/
theorem eq_infinity (infinite : x.isInfinite = true) (high : 0 ≤ x.rank) : x = infinity false := by
  have size : x.magnitude = Binary64.infinite := by simpa [isInfinite] using infinite
  have above : 0 < x.rank := by
    rw [rank_eq_magnitude high, size]
    decide
  have positive : x.bits.toNat < 0x8000000000000000 := by simpa [isNegative] using not_isNegative_of_rank_pos above
  rw [magnitude, Nat.mod_eq_of_lt positive] at size
  have bits : (infinity false).bits.toNat = Binary64.infinite := toNat_ofMagnitude false infinite_lt
  exact Binary64.ext (UInt64.toNat_inj.mp (size.trans bits.symm))

/-! ## Least units -/

/-- The magnitude of a number in least units. -/
def steps (x : Binary64) : Nat :=
  if x.magnitude / 0x10000000000000 = 0 then x.magnitude % 0x10000000000000
  else (0x10000000000000 + x.magnitude % 0x10000000000000) * 2 ^ (x.magnitude / 0x10000000000000 - 1)

theorem units_eq (x : Binary64) : x.units = if x.isNegative then -(x.steps : Int) else x.steps := by
  have unsigned : x.significand <<< (x.scale + 1074).toNat = x.steps := by
    rw [Nat.shiftLeft_eq, significand, scale, steps, exponentField, fraction]
    by_cases least : x.magnitude / 0x10000000000000 = 0
    · rw [if_pos least, if_pos least, if_pos least]
      exact Nat.mul_one _
    · have exponent : ((x.magnitude / 0x10000000000000 : Nat) - 1075 + 1074 : Int).toNat =
          x.magnitude / 0x10000000000000 - 1 := by omega
      rw [if_neg least, if_neg least, if_neg least, exponent]
  rw [units, unsigned]

theorem units_negate (x : Binary64) : x.negate.units = -x.units := by
  rw [units_eq, units_eq, steps, magnitude_negate, isNegative_negate, ← steps]
  cases x.isNegative <;> simp

/-- The numbers of an exponent end below the one that those of the next exponent start from. -/
theorem steps_lt (x : Binary64) : x.steps < 0x10000000000000 * 2 ^ (x.magnitude / 0x10000000000000) := by
  have fraction : x.magnitude % 0x10000000000000 < 0x10000000000000 := Nat.mod_lt _ (by decide)
  rw [steps]
  split
  · rename_i least
    rwa [least, Nat.pow_zero, Nat.mul_one]
  · rename_i normal
    obtain ⟨e, exponent⟩ := Nat.exists_eq_add_one_of_ne_zero normal
    rw [exponent, Nat.add_sub_cancel, Nat.pow_succ' (n := e), ← Nat.mul_assoc]
    exact Nat.mul_lt_mul_of_pos_right (by omega) (Nat.two_pow_pos e)

theorem le_steps (normal : x.magnitude / 0x10000000000000 ≠ 0) :
    0x10000000000000 * 2 ^ (x.magnitude / 0x10000000000000 - 1) ≤ x.steps := by
  rw [steps, if_neg normal]
  exact Nat.mul_le_mul_right _ (Nat.le_add_right _ _)

/-- A larger word is a larger number. -/
theorem steps_le_steps (h : x.magnitude ≤ y.magnitude) : x.steps ≤ y.steps := by
  rcases Nat.lt_or_eq_of_le (Nat.div_le_div_right (c := 0x10000000000000) h) with higher | same
  · -- there is a power of two between them
    have power : 2 ^ (x.magnitude / 0x10000000000000) ≤ 2 ^ (y.magnitude / 0x10000000000000 - 1) :=
      Nat.pow_le_pow_right (by decide) (by omega)
    exact Nat.le_of_lt (x.steps_lt.trans_le ((Nat.mul_le_mul_left _ power).trans (le_steps (by omega))))
  · have fraction : x.magnitude % 0x10000000000000 ≤ y.magnitude % 0x10000000000000 := by omega
    rw [steps, steps, same]
    split
    · exact fraction
    · exact Nat.mul_le_mul_right _ (Nat.add_le_add_left fraction _)

theorem units_of_rank_nonneg (high : 0 ≤ x.rank) : x.units = x.steps := by
  have magnitude := rank_eq_magnitude high
  rw [units_eq]
  split
  · rename_i negative
    rw [rank, if_pos negative] at magnitude
    have none : x.magnitude = 0 := by omega
    rw [steps, none]
    rfl
  · rfl

/-! ## Sums and differences -/

/-- A sum has no value: a term is a NaN, or the terms are opposite infinities. -/
def Undefined (x y : Binary64) : Prop :=
  x.isNaN = true ∨ y.isNaN = true ∨ x.isInfinite = true ∧ y.isInfinite = true ∧ x.isNegative ≠ y.isNegative

/-- What a sum is, by the terms. -/
inductive IsSum (x y : Binary64) : Binary64 → Prop where
  /-- it has no value -/
  | undefined (why : Undefined x y) : IsSum x y nan
  /-- the first term is infinite -/
  | left (defined : ¬ Undefined x y) (infinite : x.isInfinite = true) : IsSum x y x
  /-- the second term is infinite -/
  | right (defined : ¬ Undefined x y) (finite : x.isInfinite = false) (infinite : y.isInfinite = true) :
    IsSum x y y
  /-- the terms are finite, and their exact sum is rounded -/
  | rounded (defined : ¬ Undefined x y) {r : Binary64} (number : r.isNaN = false)
    (sign : 0 ≤ x.units + y.units → 0 ≤ r.rank) : IsSum x y r

theorem isSum_add (x y : Binary64) : IsSum x y (x.add y) := by
  rw [add]
  split
  · rename_i absorbed
    rw [Bool.or_eq_true] at absorbed
    exact .undefined (absorbed.imp_right .inl)
  · rename_i numbers
    rw [Bool.or_eq_true, not_or] at numbers
    have defined (agree : x.isInfinite = true → y.isInfinite = true → x.isNegative = y.isNegative) :
        ¬ Undefined x y := by
      rintro (none | none | ⟨infinite, infinite', opposite⟩)
      · exact numbers.1 none
      · exact numbers.2 none
      · exact opposite (agree infinite infinite')
    split
    · rename_i infinite
      split
      · rename_i opposite
        rw [Bool.and_eq_true, bne_iff_ne] at opposite
        exact .undefined (.inr (.inr ⟨infinite, opposite⟩))
      · rename_i agree
        rw [Bool.and_eq_true, bne_iff_ne, not_and, not_not] at agree
        exact .left (defined fun _ ↦ agree) infinite
    · rename_i finite
      have defined := defined fun infinite ↦ absurd infinite finite
      split
      · rename_i infinite
        exact .right defined (Bool.eq_false_of_not_eq_true finite) infinite
      · dsimp only
        split
        · exact .rounded defined (isNaN_zero _) fun _ ↦ by rw [rank_zero]
        · refine .rounded defined (isNaN_ofRatio _ _ _) fun exact ↦ ?_
          rw [decide_eq_false (Int.not_lt.mpr exact)]
          exact rank_nonneg_of_not_isNegative (isNegative_ofRatio false _ _)

theorem isNaN_add : (x.add y).isNaN = true ↔ Undefined x y := by
  have sum := isSum_add x y
  generalize x.add y = r at sum ⊢
  cases sum with
  | undefined why => exact iff_of_true isNaN_nan why
  | left defined infinite => exact iff_of_false (fun none ↦ defined (.inl none)) defined
  | right defined finite infinite => exact iff_of_false (fun none ↦ defined (.inr (.inl none))) defined
  | rounded defined number sign => exact iff_of_false (by simp [number]) defined

/-- A sum is not negative if its infinite terms are not, and the exact sum of finite terms is not. -/
theorem rank_add_nonneg_of_units (left : x.isInfinite = true → 0 ≤ x.rank)
    (right : x.isNaN = false → x.isInfinite = false → y.isInfinite = true → 0 ≤ y.rank)
    (exact : 0 ≤ x.units + y.units) : 0 ≤ (x.add y).rank := by
  have sum := isSum_add x y
  generalize x.add y = r at sum ⊢
  cases sum with
  | undefined why => decide
  | left defined infinite => exact left infinite
  | right defined finite infinite =>
    exact right (Bool.eq_false_of_not_eq_true fun none ↦ defined (.inl none)) finite infinite
  | rounded defined number sign => exact sign exact

theorem rank_add_nonneg (left : 0 ≤ x.rank) (right : 0 ≤ y.rank) : 0 ≤ (x.add y).rank := by
  refine rank_add_nonneg_of_units (fun _ ↦ left) (fun _ _ _ ↦ right) ?_
  rw [units_of_rank_nonneg left, units_of_rank_nonneg right]
  omega

theorem rank_sub_nonneg (low : 0 ≤ y.rank) (below : y.rank ≤ x.rank) : 0 ≤ (x.sub y).rank := by
  have high : 0 ≤ x.rank := low.trans below
  have smaller : y.magnitude ≤ x.magnitude := by
    rw [rank_eq_magnitude low, rank_eq_magnitude high] at below
    exact Int.ofNat_le.mp below
  refine rank_add_nonneg_of_units (fun _ ↦ high) (fun number finite infinite ↦ ?_) ?_
  · -- there is no infinity below a finite number
    rw [isInfinite_negate] at infinite
    simp only [isNaN, isInfinite, decide_eq_false_iff_not, beq_iff_eq, beq_eq_false_iff_ne] at *
    omega
  · rw [units_negate, units_of_rank_nonneg low, units_of_rank_nonneg high]
    have fewer := steps_le_steps smaller
    omega

end Troupe.Binary64
