import Mathlib.Algebra.GroupWithZero.Nat
import Mathlib.Algebra.Order.BigOperators.Group.List
import Troupe.Net.Frame
import Troupe.Proofs.Word

/-!
# Frames are read as they were written

A frame within the limit is read back from the start of any stream, and what stands behind it is left, if the
number of its parts and their lengths have room in words (`read_write_of_room`).  In a frame small enough they
do (`numbers_lt_of_size`).  The reader counts the size of a frame part by part, and so never beyond what the
writer counted at once.  It gets there unless it stops before, so it stops in every frame over its limit.
-/

namespace Troupe.Net.Frame

/-- The size of the parts alone. -/
def partsSize (parts : Parts) : Nat := (parts.map List.length).sum

/-- The numbers that a frame has to say: that of its parts, and of the bytes in each. -/
def numbers (parts : Parts) : List Nat := parts.length :: parts.map List.length

theorem size_eq (parts : Parts) : size parts = wordSize + parts.length * wordSize + partsSize parts := by
  induction parts with
  | nil => simp [size, partsSize]
  | cons part rest ih =>
    simp only [size, ih, partsSize, List.length_cons, List.map_cons, List.sum_cons, Nat.add_one_mul]
    omega

theorem forall_mem_numbers_iff {parts : Parts} {P : Nat → Prop} :
    (∀ n ∈ numbers parts, P n) ↔ P parts.length ∧ ∀ p ∈ parts, P p.length := by
  rw [numbers, List.forall_mem_cons, List.forall_mem_map]

/-- The numbers have room in words if the frame is smaller than one part of `2 ^ 32` bytes with its two
words. -/
theorem numbers_lt_of_size {parts : Parts} (small : size parts < 256 ^ wordSize + 2 * wordSize) :
    ∀ n ∈ numbers parts, n < 256 ^ wordSize := by
  rw [size_eq] at small
  rw [forall_mem_numbers_iff]
  constructor
  · rw [wordSize] at *
    omega
  · intro p among
    have part : p.length ≤ partsSize parts := List.le_sum_of_mem (List.mem_map_of_mem among)
    have announced : 0 < parts.length := List.length_pos_of_mem among
    rw [wordSize] at *
    omega

section Reading

variable {limit : Nat} {parts : Parts}

/-- A part behind its word is read if the frame is within the limit with it. -/
theorem readParts_writePart {part : Bytes} (room : part.length < 256 ^ wordSize) (limit count start : Nat)
    (before : List Bytes) (rest : Bytes) :
    readParts limit (count + 1) start before (writePart part ++ rest) =
      if limit < start + part.length then .failed (oversized (start + part.length) limit) (part ++ rest)
      else readParts limit count (start + part.length) (part :: before) rest := by
  have length : Word.read? wordSize (writePart part ++ rest) = some (part.length, part ++ rest) := by
    rw [writePart, List.append_assoc]
    exact Word.read?_bytes_append room _
  simp only [readParts, length, Word.take?_append]

/-- So many parts come behind their number, if their words are within the limit. -/
theorem read_count {count : Nat} (room : count < 256 ^ wordSize) (within : wordSize + count * wordSize ≤ limit)
    (rest : Bytes) : read limit (Word.bytes wordSize count ++ rest) =
      readParts limit count (wordSize + count * wordSize) [] rest := by
  simp only [read, Word.read?_bytes_append room, if_neg (Nat.not_lt_of_le within)]

/-- Otherwise their number is an error. -/
theorem read_count_large {count : Nat} (room : count < 256 ^ wordSize)
    (large : limit < wordSize + count * wordSize) (rest : Bytes) :
    ∃ m, read limit (Word.bytes wordSize count ++ rest) = .failed (.protocol m) rest := by
  simp only [read, Word.read?_bytes_append room, if_pos large]
  exact ⟨_, rfl⟩

/-- Parts within the limit are read as they were written, if their lengths have room in words. -/
theorem readParts_write (parts : Parts) (room : ∀ p ∈ parts, p.length < 256 ^ wordSize)
    (start : Nat) (within : start + partsSize parts ≤ limit) (before : List Bytes) (rest : Bytes) :
    readParts limit parts.length start before (parts.flatMap writePart ++ rest) =
      .frame (before.reverse ++ parts) rest := by
  -- The reader carries along what it has counted and read so far.
  induction parts generalizing start before with
  | nil => simp [readParts]
  | cons part parts ih =>
    obtain ⟨partRoom, room⟩ := List.forall_mem_cons.mp room
    simp only [partsSize, List.map_cons, List.sum_cons] at within
    rw [List.length_cons, List.flatMap_cons, List.append_assoc, readParts_writePart partRoom,
      if_neg (by omega), ih room (start + part.length) (by rw [partsSize]; omega)]
    simp

/-- A frame within the limit is read as it was written, and what stands behind it is left, if its numbers
have room in words. -/
theorem read_write_of_room (room : ∀ n ∈ numbers parts, n < 256 ^ wordSize) (within : size parts ≤ limit)
    (rest : Bytes) : read limit (write parts ++ rest) = .frame parts rest := by
  rw [size_eq] at within
  obtain ⟨countRoom, partsRoom⟩ := forall_mem_numbers_iff.mp room
  rw [write, List.append_assoc, read_count countRoom (by omega)]
  exact readParts_write parts partsRoom _ within [] rest

/-- Under a limit that has room in a word itself every frame within it is read as it was written. -/
theorem read_write (fits : limit < 256 ^ wordSize) (within : size parts ≤ limit) (rest : Bytes) :
    read limit (write parts ++ rest) = .frame parts rest :=
  read_write_of_room (numbers_lt_of_size (by omega)) within rest

/-- Parts over the limit are not read to their end. -/
theorem readParts_large (parts : Parts) (room : ∀ p ∈ parts, p.length < 256 ^ wordSize)
    (start : Nat) (within : start ≤ limit) (large : limit < start + partsSize parts)
    (before : List Bytes) (rest : Bytes) :
    ∃ m left, readParts limit parts.length start before (parts.flatMap writePart ++ rest) =
      .failed (.protocol m) left := by
  induction parts generalizing start before with
  | nil =>
    simp only [partsSize, List.map_nil, List.sum_nil, Nat.add_zero] at large
    omega
  | cons part parts ih =>
    obtain ⟨partRoom, room⟩ := List.forall_mem_cons.mp room
    simp only [partsSize, List.map_cons, List.sum_cons] at large
    rw [List.length_cons, List.flatMap_cons, List.append_assoc, readParts_writePart partRoom]
    split
    · exact ⟨_, _, rfl⟩
    · next small => exact ih room (start + part.length) (by omega) (by rw [partsSize]; omega) _

/-- A frame over the limit is refused, if its numbers have room in words. -/
theorem read_large (room : ∀ n ∈ numbers parts, n < 256 ^ wordSize) (large : limit < size parts)
    (rest : Bytes) : ∃ m left, read limit (write parts ++ rest) = .failed (.protocol m) left := by
  obtain ⟨countRoom, partsRoom⟩ := forall_mem_numbers_iff.mp room
  rw [size_eq] at large
  rw [write, List.append_assoc]
  by_cases within : wordSize + parts.length * wordSize ≤ limit
  · rw [read_count countRoom within]
    exact readParts_large parts partsRoom _ within large [] rest
  · obtain ⟨m, failed⟩ := read_count_large countRoom (Nat.lt_of_not_le within) (parts.flatMap writePart ++ rest)
    exact ⟨m, _, failed⟩

end Reading

/-- A frame has bytes. -/
theorem write_ne_nil (parts : Parts) : write parts ≠ [] := by
  refine List.ne_nil_of_length_pos ?_
  rw [length_write, size_eq, wordSize]
  omega

end Troupe.Net.Frame
