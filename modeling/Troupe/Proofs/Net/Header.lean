import Troupe.Proofs.Config
import Troupe.Proofs.Net.Canonical

/-!
# What the words of a frame say

A word says its number only up to multiples of `2 ^ 32`, and nothing is checked when it is written
(`Frame.words_write`).  So a frame says what it should exactly if its numbers have room in words, and
exactly then it is read back (`Frame.read_write_iff`).  A part without that room is cut, and what is left of
it is taken for what stands behind the frame (`Frame.write_singleton_cut`).  A limit keeps all frames from
this if it is less than the size of the smallest of them (`Frame.numbers_lt_iff_limit`), but a configuration
is valid with any limit other than zero.
-/

namespace Troupe.Net.Frame

/-- The words before parts, in bytes that hold each part behind its word. -/
def partWords : Parts → Bytes → List Nat
  | [], _ => []
  | part :: rest, bytes =>
    Word.value (bytes.take wordSize) :: partWords rest (bytes.drop (wordSize + part.length))

/-- The words in the bytes of a frame: the first one, and those before the parts. -/
def words (parts : Parts) (bytes : Bytes) : List Nat :=
  Word.value (bytes.take wordSize) :: partWords parts (bytes.drop wordSize)

variable {limit : Nat} {parts : Parts}

/-! ## What is written -/

theorem value_take_word (n : Nat) (rest : Bytes) :
    Word.value ((Word.bytes wordSize n ++ rest).take wordSize) = n % 256 ^ wordSize := by
  rw [List.take_left' (Word.length_bytes wordSize n), Word.value_bytes]

theorem partWords_write (parts : Parts) (rest : Bytes) :
    partWords parts (parts.flatMap writePart ++ rest) = parts.map fun p ↦ p.length % 256 ^ wordSize := by
  induction parts with
  | nil => rfl
  | cons part parts ih =>
    have behind : (writePart part ++ (parts.flatMap writePart ++ rest)).drop (wordSize + part.length) =
        parts.flatMap writePart ++ rest :=
      List.drop_left' (by rw [writePart, List.length_append, Word.length_bytes])
    rw [List.flatMap_cons, List.append_assoc, partWords, behind, ih, writePart, List.append_assoc,
      value_take_word, List.map_cons]

/-- Of each number the word says what is left of it by `2 ^ 32`. -/
theorem words_write (parts : Parts) :
    words parts (write parts) = (numbers parts).map (· % 256 ^ wordSize) := by
  have behind : (write parts).drop wordSize = parts.flatMap writePart ++ [] := by
    rw [write, List.drop_left' (Word.length_bytes ..), List.append_nil]
  rw [words, behind, partWords_write, write, value_take_word, numbers, List.map_cons, List.map_map]
  rfl

/-- The words are the numbers if these have room in words. -/
theorem words_write_eq_iff :
    words parts (write parts) = numbers parts ↔ ∀ n ∈ numbers parts, n < 256 ^ wordSize := by
  have room (n : Nat) : n % 256 ^ wordSize = n ↔ n < 256 ^ wordSize := Nat.mod_eq_iff_lt (by decide)
  calc words parts (write parts) = numbers parts
      ↔ (numbers parts).map (· % 256 ^ wordSize) = (numbers parts).map id := by
        rw [words_write, List.map_id]
    _ ↔ ∀ n ∈ numbers parts, n % 256 ^ wordSize = n := List.map_inj_left
    _ ↔ ∀ n ∈ numbers parts, n < 256 ^ wordSize := forall₂_congr fun n _ ↦ room n

/-! ## What is read -/

/-- The lengths of parts come from words. -/
theorem lengths_of_readParts {count start : Nat} {before : List Bytes} {bytes rest : Bytes}
    (frame : readParts limit count start before bytes = .frame parts rest) :
    ∃ more, parts = before.reverse ++ more ∧ more.length = count ∧ ∀ p ∈ more, p.length < 256 ^ wordSize := by
  induction count generalizing start before bytes with
  | zero =>
    cases frame
    exact ⟨[], (List.append_nil _).symm, rfl, nofun⟩
  | succ count ih =>
    rw [readParts] at frame
    split at frame
    · cases frame
    · next length bytes word =>
      split at frame
      · cases frame
      · split at frame
        · cases frame
        · next part bytes taken =>
          obtain ⟨more, rfl, rfl, room⟩ := ih frame
          obtain ⟨announced, -⟩ := Word.read?_eq_some_iff.mp word
          obtain ⟨rfl, -⟩ := Word.take?_eq_some_iff.mp taken
          refine ⟨part :: more, ?_, rfl, List.forall_mem_cons.mpr ⟨announced, room⟩⟩
          rw [List.reverse_cons, List.append_assoc, List.singleton_append]

/-- All numbers of a frame that is read come from words. -/
theorem numbers_lt_of_read {bytes rest : Bytes} (frame : read limit bytes = .frame parts rest) :
    ∀ n ∈ numbers parts, n < 256 ^ wordSize := by
  rw [read] at frame
  split at frame
  · cases frame
  · next count bytes word =>
    dsimp only at frame
    split at frame
    · cases frame
    · obtain ⟨more, rfl, rfl, room⟩ := lengths_of_readParts frame
      obtain ⟨announced, -⟩ := Word.read?_eq_some_iff.mp word
      exact forall_mem_numbers_iff.mpr ⟨announced, room⟩

/-- A frame within the limit is read back if its numbers have room in words, and not otherwise. -/
theorem read_write_iff (within : size parts ≤ limit) (rest : Bytes) :
    read limit (write parts ++ rest) = .frame parts rest ↔ ∀ n ∈ numbers parts, n < 256 ^ wordSize :=
  ⟨numbers_lt_of_read, fun room ↦ read_write_of_room room within rest⟩

/-- A part on its own is written as the frame of what its word says of it, and the other bytes behind that. -/
theorem write_singleton_cut (part : Bytes) :
    write [part] = write [part.take (part.length % 256 ^ wordSize)] ++
      part.drop (part.length % 256 ^ wordSize) := by
  have cut : (part.take (part.length % 256 ^ wordSize)).length = part.length % 256 ^ wordSize :=
    List.length_take_of_le (Nat.mod_le _ _)
  have word : Word.bytes wordSize part.length = Word.bytes wordSize (part.length % 256 ^ wordSize) := by
    have whole := Word.bytes_add wordSize (part.length % 256 ^ wordSize) (part.length / 256 ^ wordSize)
    rwa [Nat.div_add_mod'] at whole
  simp only [write, List.flatMap_singleton, writePart, List.length_singleton, cut, List.append_assoc,
    List.take_append_drop, ← word]

/-! ## What a limit has to do with it -/

/-- A limit keeps all frames within it from having numbers without room if it is less than the size of one
part of `2 ^ 32` bytes. -/
theorem numbers_lt_iff_limit : (∀ parts, size parts ≤ limit → ∀ n ∈ numbers parts, n < 256 ^ wordSize) ↔
    limit < 256 ^ wordSize + 2 * wordSize := by
  constructor
  · intro room
    by_contra wide
    have long : (List.replicate (256 ^ wordSize) (0 : UInt8)).length = 256 ^ wordSize :=
      List.length_replicate
    have within : size [List.replicate (256 ^ wordSize) 0] ≤ limit := by
      rw [size, size, long]
      omega
    obtain ⟨-, lengths⟩ := forall_mem_numbers_iff.mp (room _ within)
    exact absurd (lengths _ List.mem_cons_self) (by rw [long]; exact Nat.lt_irrefl _)
  · intro narrow parts within
    exact numbers_lt_of_size (Nat.lt_of_le_of_lt within narrow)

/-- A valid configuration stays valid with any limit other than zero.  Whatever the limit, the words in a
frame that is encoded are its numbers up to multiples of `2 ^ 32`; they are the numbers themselves exactly if
these are less than that, and exactly then a reader with room for the frame reads it back.  The words are the
numbers in all frames that are encoded exactly if the limit is less than `2 ^ 32 + 8`. -/
theorem words_exact_iff_limit {c : Config} (valid : c.validate = .ok ()) (bound : UInt64) :
    (({ c with maxMessageSize := bound } : Config).validate = .ok () ↔ bound ≠ 0) ∧
    (∀ parts bytes, encode bound.toNat parts = .ok bytes →
      words parts bytes = (numbers parts).map (· % 2 ^ 32) ∧
      (words parts bytes = numbers parts ↔ parts.length < 2 ^ 32 ∧ ∀ p ∈ parts, p.length < 2 ^ 32) ∧
      ∀ limit rest, size parts ≤ limit →
        (read limit (bytes ++ rest) = .frame parts rest ↔ words parts bytes = numbers parts)) ∧
    ((∀ parts bytes, encode bound.toNat parts = .ok bytes → words parts bytes = numbers parts) ↔
      bound.toNat < 2 ^ 32 + 8) := by
  refine ⟨?_, ?_, ?_⟩
  · obtain ⟨threads, -, format, sound⟩ := Config.validate_eq_ok_iff.mp valid
    rw [Config.validate_eq_ok_iff]
    exact ⟨fun h ↦ h.2.1, fun room ↦ ⟨threads, room, format, sound⟩⟩
  · intro parts bytes encoded
    obtain ⟨-, rfl⟩ := encode_eq_ok_iff.mp encoded
    refine ⟨words_write parts, words_write_eq_iff.trans forall_mem_numbers_iff, ?_⟩
    intro limit rest within
    rw [read_write_iff within, words_write_eq_iff]
  · refine Iff.trans ?_ numbers_lt_iff_limit
    constructor
    · intro exact parts within
      exact words_write_eq_iff.mp (exact parts _ (encode_eq_ok_iff.mpr ⟨within, rfl⟩))
    · intro room parts bytes encoded
      obtain ⟨within, rfl⟩ := encode_eq_ok_iff.mp encoded
      exact words_write_eq_iff.mpr (room parts within)

/-- A configuration with the least limit under which a number stands in a frame without room for it. -/
def wide : Config := { Config.ofThreads 1 with maxMessageSize := 4294967304 }

/-- With a limit of one byte less all frames say their numbers, and so does this one. -/
theorem words_exact_below_wide :
    wide.validate = .ok () ∧
      ({ wide with maxMessageSize := 4294967303 } : Config).validate = .ok () ∧
      (∀ parts bytes, encode 4294967303 parts = .ok bytes → words parts bytes = numbers parts) ∧
      encode 4294967303 [[7], [8, 9]] = .ok [0, 0, 0, 2, 0, 0, 0, 1, 7, 0, 0, 0, 2, 8, 9] ∧
      words [[7], [8, 9]] [0, 0, 0, 2, 0, 0, 0, 1, 7, 0, 0, 0, 2, 8, 9] = [2, 1, 2] := by
  have valid : wide.validate = .ok () := by decide +kernel
  have encoded : encode 4294967303 [[7], [8, 9]] =
      .ok [0, 0, 0, 2, 0, 0, 0, 1, 7, 0, 0, 0, 2, 8, 9] := by
    decide
  obtain ⟨accepted, -, room⟩ := words_exact_iff_limit valid 4294967303
  have exact := room.mpr (by decide)
  exact ⟨valid, accepted.mpr (by decide), exact, encoded, exact _ _ encoded⟩

/-- With this limit a part of `2 ^ 32` bytes is encoded, its word says that it has none, and a reader takes it
for an empty part with `2 ^ 32` bytes behind the frame. -/
theorem words_wrapped :
    wide.validate = .ok () ∧ numbers [List.replicate (2 ^ 32) 0] = [1, 2 ^ 32] ∧
      ∃ bytes, encode wide.maxMessageSize.toNat [List.replicate (2 ^ 32) 0] = .ok bytes ∧
        words [List.replicate (2 ^ 32) 0] bytes = [1, 0] ∧
        read wide.maxMessageSize.toNat bytes = .frame [[]] (List.replicate (2 ^ 32) 0) := by
  have limit : wide.maxMessageSize.toNat = 4294967304 := by decide
  have long : (List.replicate (2 ^ 32) (0 : UInt8)).length = 2 ^ 32 := List.length_replicate
  -- From here on only the length of the part counts.
  generalize List.replicate (2 ^ 32) (0 : UInt8) = part at long ⊢
  have said : numbers [part] = [1, 2 ^ 32] := by
    rw [numbers, List.map_singleton, long, List.length_singleton]
  have within : size [part] ≤ 4294967304 := by
    rw [size, size, long]
    decide
  have cut : write [part] = write [[]] ++ part := by
    have cut := write_singleton_cut part
    rwa [long, show 2 ^ 32 % 256 ^ wordSize = 0 by decide, List.take_zero, List.drop_zero] at cut
  refine ⟨by decide +kernel, said, write [part], ?_, ?_, ?_⟩
  · rw [limit]
    exact encode_eq_ok_iff.mpr ⟨within, rfl⟩
  · rw [words_write, said]
    decide
  · rw [limit, cut]
    exact read_write_of_room (by decide) (by decide) part

end Troupe.Net.Frame
