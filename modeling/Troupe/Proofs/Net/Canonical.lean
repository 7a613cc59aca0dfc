import Mathlib.Logic.Function.Iterate
import Troupe.Proofs.Net.Frame

/-!
# What is read as a frame is what is written of it

Whatever the bytes of a stream, those that are read as a frame are the ones that are written of it, and the
reader never holds more of a frame than its limit.  The numbers and lengths in the stream come from anyone,
so the reading is taken apart into the steps of its loop (`Stage`).  At each of them the bytes read so far
are the start of what is written, and what is counted is held already or announced (`Stage.Sound`).
-/

namespace Troupe.Net

namespace Frame

theorem size_cons (part : Bytes) (parts : Parts) :
    size (part :: parts) = wordSize + part.length + size parts := rfl

theorem size_reverse (parts : Parts) : size parts.reverse = size parts := by
  simp only [size_eq, partsSize, List.length_reverse, List.map_reverse, List.sum_reverse]

/-- Where the reading of a frame has come to. -/
inductive Stage where
  /-- the number of parts comes next -/
  | fresh (bytes : Bytes)
  /-- `left` more parts come, after those read in reverse; the frame has `counted` bytes so far -/
  | between (left counted : Nat) (read : List Bytes) (bytes : Bytes)
  /-- a buffer waits for the `length` bytes of a part; `left` more parts come after it -/
  | filling (left counted : Nat) (read : List Bytes) (length : Nat) (bytes : Bytes)
  /-- the reading is over -/
  | done (counted : Nat) (reading : Reading)

namespace Stage

/-- One step of the reading: a word is read and checked, or a buffer is filled. -/
def step (limit : Nat) : Stage → Stage
  | .fresh bytes =>
    match Word.read? wordSize bytes with
    | none => .done 0 .ended
    | some (count, bytes) =>
      let counted := wordSize + count * wordSize
      if limit < counted then
        .done counted (.failed (.protocol ("Frame of " ++ toString count ++ " parts exceeds maximum size "
          ++ toString limit)) bytes)
      else .between count counted [] bytes
  | .between 0 counted read bytes => .done counted (.frame read.reverse bytes)
  | .between (left + 1) counted read bytes =>
    match Word.read? wordSize bytes with
    | none => .done counted (.failed (truncated "part length") [])
    | some (length, bytes) =>
      let counted := counted + length
      if limit < counted then .done counted (.failed (oversized counted limit) bytes)
      else .filling left counted read length bytes
  | .filling left counted read length bytes =>
    match Word.take? length bytes with
    | none => .done counted (.failed (truncated "message part") [])
    | some (part, bytes) => .between left counted (part :: read) bytes
  | .done counted reading => .done counted reading

/-- The stage after a number of steps. -/
def after (limit n : Nat) (bytes : Bytes) : Stage := (step limit)^[n] (.fresh bytes)

/-- The bytes of the frame that are held: those read, and those that there is a buffer for. -/
def held : Stage → Nat
  | .fresh _ => 0
  | .between _ _ read _ => size read
  | .filling _ _ read length _ => size read + (wordSize + length)
  | .done _ (.frame parts _) => size parts
  | .done _ _ => 0

/-! ## The steps are those of the reading -/

/-- From between two parts the steps come to what is read of the parts that are left. -/
theorem exists_done_readParts (limit left counted : Nat) (before : List Bytes) (bytes : Bytes) :
    ∃ n c, (step limit)^[n] (.between left counted before bytes) =
      .done c (readParts limit left counted before bytes) := by
  induction left generalizing counted before bytes with
  | zero => exact ⟨1, counted, rfl⟩
  | succ left ih =>
    rw [readParts]
    cases word : Word.read? wordSize bytes with
    | none => exact ⟨1, counted, by simp [step, word]⟩
    | some next =>
      obtain ⟨length, bytes⟩ := next
      by_cases large : limit < counted + length
      · exact ⟨1, counted + length, by simp [step, word, large]⟩
      · cases taken : Word.take? length bytes with
        | none => exact ⟨2, counted + length, by simp [step, word, large, taken]⟩
        | some next =>
          obtain ⟨part, bytes⟩ := next
          obtain ⟨n, c, comes⟩ := ih (counted + length) (part :: before) bytes
          exact ⟨n + 2, c, by simpa [step, word, large, taken] using comes⟩

/-- The steps come to what is read. -/
theorem exists_done_read (limit : Nat) (bytes : Bytes) :
    ∃ n c, after limit n bytes = .done c (read limit bytes) := by
  rw [read]
  cases word : Word.read? wordSize bytes with
  | none => exact ⟨1, 0, by simp [after, step, word]⟩
  | some next =>
    obtain ⟨count, rest⟩ := next
    by_cases large : limit < wordSize + count * wordSize
    · exact ⟨1, wordSize + count * wordSize, by simp [after, step, word, large]⟩
    · obtain ⟨n, c, comes⟩ := exists_done_readParts limit count (wordSize + count * wordSize) [] rest
      exact ⟨n + 1, c, by simpa [after, step, word, large] using comes⟩

/-! ## What holds at every step -/

/-- The bytes before what is left of the stream are the start of what is written of the frame.  What is
counted has all words in it that are announced, and is within the limit. -/
def Sound (limit : Nat) (bytes : Bytes) : Stage → Prop
  | .fresh rest => bytes = rest
  | .between left counted read rest =>
    bytes = Word.bytes wordSize (read.length + left) ++ (read.reverse.flatMap writePart ++ rest) ∧
      counted = size read + left * wordSize ∧ counted ≤ limit
  | .filling left counted read length rest =>
    bytes = Word.bytes wordSize (read.length + (left + 1)) ++
        (read.reverse.flatMap writePart ++ (Word.bytes wordSize length ++ rest)) ∧
      counted = size read + (wordSize + length) + left * wordSize ∧ counted ≤ limit
  | .done counted (.frame parts rest) =>
    bytes = write parts ++ rest ∧ counted = size parts ∧ counted ≤ limit
  | .done _ .ended | .done _ (.failed _ _) => True

variable {limit : Nat} {bytes : Bytes} {s : Stage}

theorem Sound.step_fresh {rest : Bytes} (sound : (fresh rest).Sound limit bytes) :
    ((fresh rest).step limit).Sound limit bytes := by
  rw [step]
  cases word : Word.read? wordSize rest with
  | none => trivial
  | some next =>
    obtain ⟨count, behind⟩ := next
    obtain ⟨-, announced⟩ := Word.read?_eq_some_iff.mp word
    dsimp only
    split
    · trivial
    · next small =>
      refine ⟨?_, rfl, Nat.le_of_not_lt small⟩
      rw [List.length_nil, Nat.zero_add]
      exact sound.trans announced

/-- The last part has been read, or the length of the next one comes. -/
theorem Sound.step_between {left counted : Nat} {read : List Bytes} {rest : Bytes}
    (sound : (between left counted read rest).Sound limit bytes) :
    ((between left counted read rest).step limit).Sound limit bytes := by
  obtain ⟨shape, exact, within⟩ := sound
  cases left with
  | zero =>
    refine ⟨?_, ?_, within⟩
    · simpa [write] using shape
    · simpa [size_reverse] using exact
  | succ left =>
    rw [step]
    cases word : Word.read? wordSize rest with
    | none => trivial
    | some next =>
      obtain ⟨length, behind⟩ := next
      obtain ⟨-, announced⟩ := Word.read?_eq_some_iff.mp word
      dsimp only
      split
      · trivial
      · next small =>
        refine ⟨announced ▸ shape, ?_, Nat.le_of_not_lt small⟩
        rw [exact, Nat.add_one_mul]
        omega

theorem Sound.step_filling {left counted length : Nat} {read : List Bytes} {rest : Bytes}
    (sound : (filling left counted read length rest).Sound limit bytes) :
    ((filling left counted read length rest).step limit).Sound limit bytes := by
  obtain ⟨shape, exact, within⟩ := sound
  rw [step]
  cases taken : Word.take? length rest with
  | none => trivial
  | some next =>
    obtain ⟨part, behind⟩ := next
    obtain ⟨rfl, filled⟩ := Word.take?_eq_some_iff.mp taken
    refine ⟨?_, ?_, within⟩
    · rw [filled] at shape
      simpa [writePart, Nat.add_assoc, Nat.add_comm 1] using shape
    · rw [exact, size_cons]
      omega

theorem Sound.step (sound : s.Sound limit bytes) : (s.step limit).Sound limit bytes := by
  cases s with
  | fresh rest => exact sound.step_fresh
  | between left counted read rest => exact sound.step_between
  | filling left counted read length rest => exact sound.step_filling
  | done counted reading => exact sound

/-- The reading of any bytes is sound at every stage. -/
theorem sound_after (limit n : Nat) (bytes : Bytes) : (after limit n bytes).Sound limit bytes := by
  induction n with
  | zero => rfl
  | succ n ih =>
    rw [after, Function.iterate_succ_apply']
    exact ih.step

theorem Sound.held_le (sound : s.Sound limit bytes) : s.held ≤ limit := by
  cases s with
  | fresh rest => exact Nat.zero_le _
  | between left counted read rest =>
    obtain ⟨-, exact, within⟩ := sound
    rw [held]
    omega
  | filling left counted read length rest =>
    obtain ⟨-, exact, within⟩ := sound
    rw [held]
    omega
  | done counted reading =>
    cases reading with
    | frame parts rest =>
      obtain ⟨-, exact, within⟩ := sound
      rw [held, ← exact]
      exact within
    | ended | failed e rest => exact Nat.zero_le _

end Stage

/-- The bytes that are read as a frame are those that are written of it, and they are what was counted. -/
theorem eq_write_of_read {limit : Nat} {bytes rest : Bytes} {parts : Parts}
    (frame : read limit bytes = .frame parts rest) :
    bytes = write parts ++ rest ∧ size parts ≤ limit ∧
      ∃ n, Stage.after limit n bytes = .done (size parts) (.frame parts rest) := by
  obtain ⟨n, counted, comes⟩ := Stage.exists_done_read limit bytes
  have sound := Stage.sound_after limit n bytes
  rw [frame] at comes
  rw [comes] at sound
  obtain ⟨shape, rfl, within⟩ := sound
  exact ⟨shape, within, n, comes⟩

end Frame

theorem Reader.next_fst (r : Reader) : r.next.1 = Frame.read r.limit r.stream := by
  rw [next]
  split
  · next read => exact read.symm
  · rfl

/-- A frame that is read is at the start of the stream as it is written, and the reader goes on behind it. -/
theorem Reader.write_of_next {r r' : Reader} {parts : Parts} {rest : Bytes}
    (frame : r.next = (.frame parts rest, r')) :
    r.stream = Frame.write parts ++ rest ∧ Frame.size parts ≤ r.limit ∧
      r' = ⟨r.limit, rest, r.received + Frame.size parts⟩ := by
  have read : Frame.read r.limit r.stream = .frame parts rest := by
    rw [← next_fst, frame]
  obtain ⟨shape, within, -⟩ := Frame.eq_write_of_read read
  rw [next, read] at frame
  exact ⟨shape, within, (congrArg Prod.snd frame).symm⟩

/-- Whatever the stream, the bytes that are read as a frame are the encoding of the frame, and the reader
goes on behind them having received as many.  So no other bytes are read as that frame, by a reader with any
limit.  At no stage of a reading the reader holds more than its limit. -/
theorem Reader.next_canonical (r : Reader) :
    (∃ n counted, Frame.Stage.after r.limit n r.stream = .done counted r.next.1) ∧
      (∀ n, (Frame.Stage.after r.limit n r.stream).held ≤ r.limit) ∧
      ∀ parts rest r', r.next = (.frame parts rest, r') →
        ∃ head, Frame.encode r.limit parts = .ok head ∧ r.stream = head ++ rest ∧
          r' = ⟨r.limit, rest, r.received + head.length⟩ ∧ head.length ≤ r.limit ∧
          (∃ n, Frame.Stage.after r.limit n r.stream = .done head.length (.frame parts rest)) ∧
          ∀ (other : Reader) head' rest', other.stream = head' ++ rest' →
            other.next.1 = .frame parts rest' → head' = head := by
  refine ⟨?_, ?_, ?_⟩
  · obtain ⟨n, counted, comes⟩ := Frame.Stage.exists_done_read r.limit r.stream
    exact ⟨n, counted, r.next_fst ▸ comes⟩
  · intro n
    exact (Frame.Stage.sound_after r.limit n r.stream).held_le
  · rintro parts rest r' frame
    have read : Frame.read r.limit r.stream = .frame parts rest := by
      rw [← next_fst, frame]
    obtain ⟨shape, within, reaches⟩ := Frame.eq_write_of_read read
    have size : (Frame.write parts).length = Frame.size parts := Frame.length_write parts
    refine ⟨Frame.write parts, Frame.encode_eq_ok_iff.mpr ⟨within, rfl⟩, shape, ?_, ?_, ?_, ?_⟩
    · rw [next, read] at frame
      rw [size]
      exact (congrArg Prod.snd frame).symm
    · rwa [size]
    · rwa [size]
    · intro other head' rest' cut same
      obtain ⟨whole, -⟩ := Frame.eq_write_of_read (other.next_fst.symm.trans same)
      exact List.append_cancel_right (cut.symm.trans whole)

/-- A frame of ten bytes with a byte behind it, which has no part in what is read. -/
theorem next_canonical_trailing :
    Reader.next ⟨16, [0, 0, 0, 1, 0, 0, 0, 2, 7, 9, 0xFF], 5⟩ =
        (.frame [[7, 9]] [0xFF], ⟨16, [0xFF], 15⟩) ∧
      Frame.encode 16 [[7, 9]] = .ok [0, 0, 0, 1, 0, 0, 0, 2, 7, 9] ∧
      (∃ n, Frame.Stage.after 16 n [0, 0, 0, 1, 0, 0, 0, 2, 7, 9, 0xFF] =
        .done 10 (.frame [[7, 9]] [0xFF])) ∧
      ∀ n, (Frame.Stage.after 16 n [0, 0, 0, 1, 0, 0, 0, 2, 7, 9, 0xFF]).held ≤ 16 := by
  have reads : Reader.next ⟨16, [0, 0, 0, 1, 0, 0, 0, 2, 7, 9, 0xFF], 5⟩ =
      (.frame [[7, 9]] [0xFF], ⟨16, [0xFF], 15⟩) := by cbv
  obtain ⟨-, held, frames⟩ := Reader.next_canonical ⟨16, [0, 0, 0, 1, 0, 0, 0, 2, 7, 9, 0xFF], 5⟩
  obtain ⟨head, encoded, -, -, -, reaches, -⟩ := frames _ _ _ reads
  obtain rfl : Frame.write [[7, 9]] = head := (Frame.encode_eq_ok_iff.mp encoded).2
  have written : Frame.write [[7, 9]] = [0, 0, 0, 1, 0, 0, 0, 2, 7, 9] := by decide
  rw [written] at encoded reaches
  exact ⟨reads, encoded, reaches, held⟩

end Troupe.Net
