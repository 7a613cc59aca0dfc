import Mathlib.Data.List.TakeDrop
import Mathlib.Tactic.SplitIfs
import Troupe.Json.Number
import Troupe.Proofs.Data
import Troupe.Proofs.Numeral

/-!
# Integers in JSON are read as they were written

An integer is written in decimal digits after its sign.  Its digits are all taken, since an integer of 64
bits does not outgrow the significand, and it ends where no digit, point or exponent goes on with it.
-/

namespace Troupe.Json

/-- Nothing in the text goes on with a number that ends before it. -/
def Stops (rest : List Char) : Prop :=
  ∀ c ∈ rest.head?, Numeral.isDigit c = false ∧ c ≠ '.' ∧ c ≠ 'e' ∧ c ≠ 'E'

/-! ## Digits -/

/-- Only zero starts with a zero. -/
theorem exists_toDigits_eq_cons {n : Nat} (positive : 0 < n) :
    ∃ c ds, Nat.toDigits 10 n = c :: ds ∧ c ≠ '0' := by
  induction n using Nat.base_induction 10 (by decide) with
  | single m small =>
    have digit : ∀ m < 10, 0 < m → m.digitChar ≠ '0' := by decide
    exact ⟨_, _, Nat.toDigits_of_lt_base small, digit m small positive⟩
  | digit m k small some ih =>
    obtain ⟨c, ds, first, other⟩ := ih some
    rw [← Nat.toDigits_append_toDigits (by decide) some small, first]
    exact ⟨c, _, rfl, other⟩

/-- The text of a number starts with a digit. -/
theorem exists_toString_nat_eq_cons (n : Nat) :
    ∃ c ds, (toString n).toList = c :: ds ∧ Numeral.isDigit c = true := by
  rw [Numeral.toList_toString_nat]
  obtain ⟨c, ds, first⟩ := List.exists_cons_of_ne_nil (Nat.toDigits_ne_nil (n := n) (b := 10))
  exact ⟨c, ds, first, Numeral.isDigit_of_mem_toDigits (first ▸ List.mem_cons_self)⟩

theorem le_ofDigitChars (ds : List Char) (start : Nat) : start ≤ Nat.ofDigitChars 10 ds start := by
  rw [Nat.ofDigitChars_eq_ofDigitChars_zero]
  exact Nat.le_add_right_of_le (Nat.le_mul_of_pos_left start (Nat.pow_pos (by decide)))

/-- Digits are taken as long as there are some, if their number is not too large. -/
theorem gather_append {ds rest : List Char} (digits : ∀ c ∈ ds, Numeral.isDigit c = true)
    (stops : startsWithDigit rest = false) {start : Nat}
    (fits : Nat.ofDigitChars 10 ds start < significandLimit) :
    gather start (ds ++ rest) = (Nat.ofDigitChars 10 ds start, ds.length, rest) := by
  induction ds generalizing start with
  | nil =>
    cases rest with
    | nil => simp [gather]
    | cons c rest =>
      have other : Numeral.isDigit c = false := stops
      simp [gather, other]
  | cons c ds ih =>
    rw [Nat.ofDigitChars_cons] at fits ⊢
    -- What the digits so far stand for is not larger than what all stand for.
    have next := Nat.lt_of_le_of_lt (le_ofDigitChars ds _) fits
    rw [List.cons_append, gather, if_pos (digits c List.mem_cons_self), Nat.mul_comm start]
    dsimp only
    rw [if_pos next, ih (fun d among ↦ digits d (List.mem_cons_of_mem _ among)) fits]
    rfl

/-! ## Numbers -/

section Numbers

variable {rest : List Char} (stops : Stops rest)
include stops

theorem startsWithDigit_of_stops : startsWithDigit rest = false := by
  cases rest with
  | nil => rfl
  | cons c rest => exact (stops c rfl).1

theorem spanDigits_of_stops : Numeral.spanDigits rest = ([], rest) := by
  cases rest with
  | nil => rfl
  | cons c rest => simp [Numeral.spanDigits, List.span_eq_takeWhile_dropWhile, (stops c rfl).1]

theorem magnitude_toDigits (negative : Bool) {n : Nat} (fits : n < significandLimit) :
    magnitude negative (Nat.toDigits 10 n ++ rest) = some (integer negative n, rest) := by
  have apart := startsWithDigit_of_stops stops
  have span := spanDigits_of_stops stops
  rcases Nat.eq_zero_or_pos n with rfl | positive
  · cases rest with
    | nil => simp [magnitude, startsWithDigit, span]
    | cons c more =>
      obtain ⟨-, point, small, large⟩ := stops c rfl
      simp [magnitude, apart, span, small, large]
  · have taken : gather 0 (Nat.toDigits 10 n ++ rest) = (n, (Nat.toDigits 10 n).length, rest) := by
      have whole : Nat.ofDigitChars 10 (Nat.toDigits 10 n) 0 = n := Nat.ofDigitChars_ten_toDigits
      rw [gather_append (fun c ↦ Numeral.isDigit_of_mem_toDigits) apart (by rwa [whole]), whole]
    obtain ⟨c, ds, first, other⟩ := exists_toDigits_eq_cons positive
    rw [first, List.cons_append] at taken
    cases rest with
    | nil =>
      rw [List.append_nil] at taken
      simp [magnitude, first, other, taken, startsWithDigit, span]
    | cons c more =>
      obtain ⟨-, point, small, large⟩ := stops c rfl
      simp [magnitude, first, other, taken, apart, span, small, large]

/-- An unsigned integer is read in its preferred form. -/
theorem number_nat {n : Nat} (fits : n < significandLimit) :
    number ((toString n).toList ++ rest) = some (.ofUInt64 (UInt64.ofNat n), rest) := by
  obtain ⟨c, ds, first, digit⟩ := exists_toString_nat_eq_cons n
  have unsigned : number (c :: ds ++ rest) = magnitude false (c :: ds ++ rest) := by
    have other : c ≠ '-' := by
      rintro rfl
      cases digit
    rw [number]
    rintro more same
    exact other (List.cons.inj same).1
  rw [first, unsigned, ← first, Numeral.toList_toString_nat, magnitude_toDigits stops false fits]
  rfl

/-- An integer is read as it was. -/
theorem number_int (i : Int64) : number ((toString i.toInt).toList ++ rest) = some (.int i, rest) := by
  have low : -2 ^ 63 ≤ i.toInt := Int64.le_toInt i
  have high : i.toInt < 2 ^ 63 := Int64.toInt_lt i
  suffices h : number ((toString i.toInt).toList ++ rest) = some (.int (Int64.ofInt i.toInt), rest) by
    rwa [Int64.ofInt_toInt] at h
  generalize i.toInt = j at low high ⊢
  cases j with
  | ofNat n =>
    rw [Int.ofNat_eq_natCast] at high
    have small : n < 2 ^ 63 := by omega
    have natural : toString (Int.ofNat n) = toString n := rfl
    rw [natural, number_nat stops (Nat.lt_trans small (by decide)), Data.ofUInt64_of_lt small,
      ← Int64.ofInt_eq_ofNat]
    rfl
  | negSucc m =>
    have small : m + 1 ≤ 2 ^ 63 := by omega
    have signed : (toString (Int.negSucc m)).toList = '-' :: (toString (m + 1)).toList := by
      simp [toString, Int.repr]
    rw [signed, List.cons_append, number, Numeral.toList_toString_nat,
      magnitude_toDigits stops true (Nat.lt_of_le_of_lt small (by decide)), integer, if_pos rfl,
      if_neg (by omega)]
    rfl

end Numbers

end Troupe.Json
