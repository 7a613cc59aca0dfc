import Troupe.Proofs.Net.Canonical

/-!
# Streams that end inside a frame

A stream may end anywhere inside a frame.  If it ends behind the number of parts, then it ends inside the
length of some part or inside the part itself, the reader is after just these bytes, and its answer is an
error that says so (`Frame.read_take_write`).  A stream that ends inside the number of parts is answered
like one that ends before the frame: those are the streams with fewer bytes than a word
(`Frame.read_eq_ended_iff`).  Either way nothing is left in the stream.
-/

namespace Troupe.Net

namespace Frame

/-- What a reader is after, so many bytes behind the start of a part with its length. -/
def sought (offset : Nat) : String := if offset < wordSize then "part length" else "message part"

theorem length_writePart (part : Bytes) : (writePart part).length = wordSize + part.length := by
  rw [writePart, List.length_append, Word.length_bytes]

/-- Behind the number of parts every place in a frame is in one of its parts, or in the length of one. -/
theorem exists_cut {parts : Parts} {k : Nat} (behind : wordSize ≤ k) (inside : k < size parts) :
    ∃ before part after offset, parts = before ++ part :: after ∧ k = size before + offset ∧
      offset < wordSize + part.length := by
  induction parts generalizing k with
  | nil =>
    rw [size] at inside
    omega
  | cons part parts ih =>
    by_cases here : k - wordSize < wordSize + part.length
    · exact ⟨[], part, parts, k - wordSize, rfl, by rw [size]; omega, here⟩
    · rw [size_cons] at inside
      obtain ⟨before, next, after, offset, rfl, place, within⟩ :=
        ih (k := k - (wordSize + part.length)) (by omega) (by omega)
      refine ⟨part :: before, next, after, offset, rfl, ?_, within⟩
      rw [size_cons]
      omega

/-- The first bytes of a frame are its number of parts, some parts with their lengths, and the first bytes of
another. -/
theorem take_write {before after : Parts} {part : Bytes} {offset : Nat}
    (within : offset < wordSize + part.length) :
    (write (before ++ part :: after)).take (size before + offset) =
      Word.bytes wordSize (before ++ part :: after).length ++
        (before.flatMap writePart ++ (writePart part).take offset) := by
  have whole : (Word.bytes wordSize (before ++ part :: after).length ++ before.flatMap writePart).length =
      size before := by
    rw [← length_write before, write, List.length_append, List.length_append, Word.length_bytes]
    simp
  rw [write, List.flatMap_append, List.flatMap_cons, ← List.append_assoc, List.take_append, whole,
    Nat.add_sub_cancel_left, List.take_of_length_le (by rw [whole]; omega), List.take_append,
    length_writePart, Nat.sub_eq_zero_of_le (Nat.le_of_lt within), List.take_zero, List.append_nil,
    List.append_assoc]

/-- If the bytes end inside the length of a part or inside the part, the reader gets there and fails. -/
theorem readParts_take {limit : Nat} (fits : limit < 256 ^ wordSize) {before after : Parts} {part : Bytes}
    {offset : Nat} (inside : offset < wordSize + part.length) (start : Nat)
    (within : start + partsSize (before ++ part :: after) ≤ limit) (read : List Bytes) :
    readParts limit (before ++ part :: after).length start read
        (before.flatMap writePart ++ (writePart part).take offset) =
      .failed (truncated (sought offset)) [] := by
  induction before generalizing start read with
  | nil =>
    simp only [List.nil_append, partsSize, List.map_cons, List.sum_cons] at within
    rw [List.nil_append, List.length_cons, List.flatMap_nil, List.nil_append, readParts, sought]
    by_cases early : offset < wordSize
    · have nothing : Word.read? wordSize ((writePart part).take offset) = none := by
        rw [Word.read?_eq_none_iff, List.length_take, length_writePart]
        omega
      rw [nothing, if_pos early]
    · have length : Word.read? wordSize ((writePart part).take offset) =
          some (part.length, part.take (offset - wordSize)) := by
        rw [writePart, List.take_append, Word.length_bytes,
          List.take_of_length_le (by rw [Word.length_bytes]; omega)]
        exact Word.read?_bytes_append (by omega) _
      have nothing : Word.take? part.length (part.take (offset - wordSize)) = none := by
        rw [Word.take?_eq_none_iff, List.length_take]
        omega
      simp only [length, nothing, if_neg early]
      rw [if_neg (by omega)]
  | cons first before ih =>
    simp only [List.cons_append, partsSize, List.map_cons, List.sum_cons] at within
    rw [List.cons_append, List.length_cons, List.flatMap_cons, List.append_assoc,
      readParts_writePart (by omega), if_neg (by omega)]
    exact ih (start + first.length) (by rw [partsSize]; omega) (first :: read)

/-- A stream that ends behind the number of parts of a frame and before its end is an error. -/
theorem read_take_write {limit : Nat} (fits : limit < 256 ^ wordSize) {before after : Parts} {part : Bytes}
    {offset : Nat} (inside : offset < wordSize + part.length)
    (within : size (before ++ part :: after) ≤ limit) :
    read limit ((write (before ++ part :: after)).take (size before + offset)) =
      .failed (truncated (sought offset)) [] := by
  rw [size_eq] at within
  have room : (before ++ part :: after).length < 256 ^ wordSize := by rw [wordSize] at *; omega
  rw [take_write inside, read_count room (by omega)]
  exact readParts_take fits inside _ within []

/-- Parts that are read are a frame or an error. -/
theorem readParts_ne_ended (limit count start : Nat) (before : List Bytes) (bytes : Bytes) :
    readParts limit count start before bytes ≠ .ended := by
  induction count generalizing start before bytes with
  | zero => rintro ⟨⟩
  | succ count ih =>
    rw [readParts]
    split
    · rintro ⟨⟩
    · split
      · rintro ⟨⟩
      · split
        · rintro ⟨⟩
        · exact ih _ _ _

/-- A stream is answered as one that has ended if it has fewer bytes than the number of parts. -/
theorem read_eq_ended_iff {limit : Nat} {bytes : Bytes} :
    read limit bytes = .ended ↔ bytes.length < wordSize := by
  rw [← Word.read?_eq_none_iff]
  cases word : Word.read? wordSize bytes with
  | none => simp [read, word]
  | some next =>
    obtain ⟨count, rest⟩ := next
    have goes : read limit bytes ≠ .ended := by
      simp only [read, word]
      split
      · rintro ⟨⟩
      · exact readParts_ne_ended _ _ _ _ _
    simp [goes]

end Frame

namespace Reader

theorem next_of_not_frame {r : Reader} {reading : Frame.Reading} (read : Frame.read r.limit r.stream = reading)
    (other : ∀ parts rest, reading ≠ .frame parts rest) :
    r.next = (reading, ⟨r.limit, reading.rest, r.received⟩) := by
  rw [next, read]
  split
  · next parts rest => exact absurd rfl (other parts rest)
  · rfl

/-- Of a frame that a writer does not refuse, a stream holds some bytes and not all.  The reader with the
same limit gets no frame, and has read the stream to its end.  If all bytes of the number of parts are
there, then it fails: it lacks bytes of the length of a part or of the part itself, whichever the stream
ends in.  If they are not, then the stream counts as ended; and a stream counts as ended only if it has
fewer bytes than that. -/
theorem next_truncated {limit : Nat} (fits : limit < 2 ^ 32) {parts : Parts} {bytes : Bytes}
    (encoded : Frame.encode limit parts = .ok bytes) (received : Nat) :
    (∀ k, 0 < k → k < bytes.length →
      (k < Frame.wordSize → (⟨limit, bytes.take k, received⟩ : Reader).next =
        (.ended, ⟨limit, [], received⟩)) ∧
      (Frame.wordSize ≤ k → ∃ before part after offset, parts = before ++ part :: after ∧
        k = Frame.size before + offset ∧ offset < Frame.wordSize + part.length ∧
        (⟨limit, bytes.take k, received⟩ : Reader).next =
          (.failed (Frame.truncated (Frame.sought offset)) [], ⟨limit, [], received⟩))) ∧
    ∀ r : Reader, r.next.1 = .ended ↔ r.stream.length < Frame.wordSize := by
  obtain ⟨within, rfl⟩ := Frame.encode_eq_ok_iff.mp encoded
  constructor
  · intro k _ cut
    rw [Frame.length_write] at cut
    constructor
    · intro early
      apply next_of_not_frame
      · rw [Frame.read_eq_ended_iff, List.length_take]
        exact Nat.lt_of_le_of_lt (Nat.min_le_left ..) early
      · exact nofun
    · intro behind
      obtain ⟨before, part, after, offset, rfl, rfl, inside⟩ := Frame.exists_cut behind cut
      refine ⟨before, part, after, offset, rfl, rfl, inside, ?_⟩
      apply next_of_not_frame
      · exact Frame.read_take_write fits inside within
      · exact nofun
  · intro r
    rw [next_fst, Frame.read_eq_ended_iff]

/-- A frame of two parts, of which the second lacks its last byte. -/
theorem next_truncated_late :
    64 < 2 ^ 32 ∧ Frame.encode 64 [[7], [8, 9]] = .ok [0, 0, 0, 2, 0, 0, 0, 1, 7, 0, 0, 0, 2, 8, 9] ∧
      Reader.next ⟨64, [0, 0, 0, 2, 0, 0, 0, 1, 7, 0, 0, 0, 2, 8], 0⟩ =
        (.failed (Frame.truncated "message part") [], ⟨64, [], 0⟩) := by
  have encoded : Frame.encode 64 [[7], [8, 9]] = .ok [0, 0, 0, 2, 0, 0, 0, 1, 7, 0, 0, 0, 2, 8, 9] := by
    decide
  refine ⟨by decide, encoded, ?_⟩
  obtain ⟨cuts, -⟩ := next_truncated (by decide) encoded 0
  obtain ⟨before, part, after, offset, shape, place, inside, fails⟩ :=
    (cuts 14 (by decide) (by decide)).2 (by decide)
  have late : Frame.sought offset = "message part" := by
    rcases before with _ | ⟨first, _ | ⟨second, before⟩⟩
    · obtain ⟨rfl, -⟩ := List.cons.inj shape
      have same : 14 = 4 + offset := place
      have within : offset < 4 + 1 := inside
      omega
    · obtain ⟨rfl, -⟩ := List.cons.inj shape
      have same : 14 = 9 + offset := place
      rw [Frame.sought, if_neg (by rw [Frame.wordSize]; omega)]
    · simp at shape
  rw [late] at fails
  exact fails

/-- Three of the nine bytes of a frame are no error: the stream counts as ended. -/
theorem next_cut_in_count :
    Frame.encode 64 [[7]] = .ok [0, 0, 0, 1, 0, 0, 0, 1, 7] ∧
      (Reader.next ⟨64, [0, 0, 0, 1, 0, 0, 0, 1, 7].take 3, 0⟩).1 = .ended ∧
      ¬ ∃ e rest, (Reader.next ⟨64, [0, 0, 0, 1, 0, 0, 0, 1, 7].take 3, 0⟩).1 = .failed e rest := by
  have ended : (Reader.next ⟨64, [0, 0, 0, 1, 0, 0, 0, 1, 7].take 3, 0⟩).1 = .ended := by decide
  refine ⟨by decide, ended, ?_⟩
  rintro ⟨e, rest, failed⟩
  rw [ended] at failed
  cases failed

end Reader

end Troupe.Net
