import Mathlib.Tactic.Ring
import Troupe.Word

/-!
# Words stand for numbers

A word of some width holds the low bytes of a number, so it stands for the number itself if that is small
enough, and it is read back from the start of any bytes.  Conversely any bytes are the word of the number
that they stand for, so what was read as a word is the word that is written (`read?_eq_some_iff`).
-/

namespace Troupe.Word

variable (width n : Nat)

theorem bytes_succ : bytes (width + 1) n = UInt8.ofNat (n / 256 ^ width) :: bytes width n := by
  rw [bytes, Nat.shiftRight_eq_div_pow, Nat.pow_mul]

theorem foldl_bytes (start : Nat) :
    (bytes width n).foldl (fun m b ↦ m * 256 + b.toNat) start = start * 256 ^ width + n % 256 ^ width := by
  -- A digit moves the start up by a place, so the start has to be any number.
  induction width generalizing start with
  | zero => simp [bytes, Nat.mod_one]
  | succ width ih =>
    have digit : (UInt8.ofNat (n / 256 ^ width)).toNat = n / 256 ^ width % 256 := by
      simp
    rw [bytes_succ, List.foldl_cons, ih, digit, Nat.mod_pow_succ]
    ring

/-- A word stands for the low bytes of its number. -/
theorem value_bytes : value (bytes width n) = n % 256 ^ width := by
  rw [value, foldl_bytes, Nat.zero_mul, Nat.zero_add]

variable {width n}

/-- A word stands for its number if it has room for it. -/
theorem value_bytes_of_lt (room : n < 256 ^ width) : value (bytes width n) = n := by
  rw [value_bytes, Nat.mod_eq_of_lt room]

/-- A word is read back from the bytes that it starts. -/
theorem read?_bytes_append (room : n < 256 ^ width) (rest : Bytes) :
    read? width (bytes width n ++ rest) = some (n, rest) := by
  have taken : take? width (bytes width n ++ rest) = some (bytes width n, rest) := by
    have exact := take?_append (bytes width n) rest
    rwa [length_bytes] at exact
  simp only [read?, taken, Option.map_some, value_bytes_of_lt room]

/-! ## Any bytes are a word -/

theorem foldl_start (bs : Bytes) (start : Nat) :
    bs.foldl (fun m b ↦ m * 256 + b.toNat) start = start * 256 ^ bs.length + value bs := by
  induction bs generalizing start with
  | nil => simp [value]
  | cons b bs ih =>
    rw [value, List.foldl_cons, List.foldl_cons, ih, ih (0 * 256 + b.toNat), List.length_cons, Nat.pow_succ]
    ring

theorem value_cons (b : UInt8) (bs : Bytes) : value (b :: bs) = b.toNat * 256 ^ bs.length + value bs := by
  rw [value, List.foldl_cons, foldl_start, Nat.zero_mul, Nat.zero_add]

theorem value_lt (bs : Bytes) : value bs < 256 ^ bs.length := by
  induction bs with
  | nil => simp [value]
  | cons b bs ih =>
    have byte : b.toNat < 256 := b.toNat_lt
    rw [value_cons, List.length_cons, Nat.pow_succ']
    calc b.toNat * 256 ^ bs.length + value bs < (b.toNat + 1) * 256 ^ bs.length := by
          rw [Nat.add_one_mul]; omega
      _ ≤ 256 * 256 ^ bs.length := Nat.mul_le_mul_right _ byte

/-- Higher places do not show in the bytes. -/
theorem bytes_add (width n high : Nat) : bytes width (high * 256 ^ width + n) = bytes width n := by
  induction width generalizing high with
  | zero => rfl
  | succ width ih =>
    have shift : high * 256 ^ (width + 1) + n = high * 256 * 256 ^ width + n := by ring
    have digit : (high * 256 * 256 ^ width + n) / 256 ^ width = n / 256 ^ width + high * 256 := by
      rw [Nat.add_comm, Nat.add_mul_div_right _ _ (Nat.pow_pos (by decide))]
    have byte : UInt8.ofNat (n / 256 ^ width + high * 256) = UInt8.ofNat (n / 256 ^ width) := by
      apply UInt8.toNat_inj.mp
      simp
    rw [bytes_succ, bytes_succ, shift, ih, digit, byte]

theorem bytes_value (bs : Bytes) : bytes bs.length (value bs) = bs := by
  induction bs with
  | nil => rfl
  | cons b bs ih =>
    have digit : (b.toNat * 256 ^ bs.length + value bs) / 256 ^ bs.length = b.toNat := by
      rw [Nat.mul_comm, Nat.mul_add_div (Nat.pow_pos (by decide)), Nat.div_eq_of_lt (value_lt bs),
        Nat.add_zero]
    rw [List.length_cons, bytes_succ, value_cons, digit, bytes_add, ih, UInt8.ofNat_toNat]

theorem take?_eq_some_iff {bs head rest : Bytes} :
    take? width bs = some (head, rest) ↔ head.length = width ∧ bs = head ++ rest := by
  constructor
  · intro h
    simp only [take?] at h
    split at h
    · next whole =>
      cases h
      exact ⟨whole, (List.take_append_drop width bs).symm⟩
    · cases h
  · rintro ⟨rfl, rfl⟩
    exact take?_append head rest

theorem read?_eq_some_iff {bs rest : Bytes} :
    read? width bs = some (n, rest) ↔ n < 256 ^ width ∧ bs = bytes width n ++ rest := by
  constructor
  · intro h
    obtain ⟨⟨head, rest⟩, taken, same⟩ := Option.map_eq_some_iff.mp h
    obtain ⟨rfl, rfl⟩ := take?_eq_some_iff.mp taken
    cases same
    exact ⟨value_lt head, by rw [bytes_value]⟩
  · rintro ⟨room, rfl⟩
    exact read?_bytes_append room rest

/-! ## Bytes that are too few -/

theorem take?_eq_none_iff {bs : Bytes} : take? width bs = none ↔ bs.length < width := by
  rw [take?, List.length_take]
  split <;> simp <;> omega

theorem read?_eq_none_iff {bs : Bytes} : read? width bs = none ↔ bs.length < width := by
  rw [read?, Option.map_eq_none_iff, take?_eq_none_iff]

end Troupe.Word
