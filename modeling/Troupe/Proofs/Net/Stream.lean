import Troupe.Proofs.Net.Frame

/-!
# Streams of frames are read as they were written

A writer is offered frames and a reader reads what came onto the stream.  The frames that the writer does
not refuse are read in their order as long as they are within the limit of the reader as well.  Then the
stream ends, if there are no others; one over the limit of the reader is an error, and no frame.
-/

namespace Troupe.Net

namespace Writer

variable {w : Writer} {parts : Parts}

/-- What the writer answers to a frame, and the writer after it. -/
def offer (w : Writer) (parts : Parts) : Except TransportError Unit × Writer :=
  match w.write parts with
  | .ok written => (.ok (), written)
  | .error e => (.error e, w)

/-- What the writer answers to frames that it is offered one after the other, and the writer after them. -/
def offerAll (w : Writer) : List Parts → List (Except TransportError Unit) × Writer
  | [] => ([], w)
  | parts :: frames =>
    let (answer, w) := w.offer parts
    let (answers, w) := w.offerAll frames
    (answer :: answers, w)

theorem offer_of_le (within : Frame.size parts ≤ w.limit) :
    w.offer parts = (.ok (), w.writeEncoded (Frame.write parts)) := by
  have encoded : Frame.encode w.limit parts = .ok (Frame.write parts) :=
    Frame.encode_eq_ok_iff.mpr ⟨within, rfl⟩
  rw [offer, write, encoded]
  rfl

theorem offer_of_lt (large : w.limit < Frame.size parts) :
    w.offer parts = (.error (Frame.oversized (Frame.size parts) w.limit), w) := by
  rw [offer, write, Frame.encode, if_pos large]
  rfl

end Writer

namespace Frame

/-- The answer of a writer to a frame. -/
def admission (limit : Nat) (parts : Parts) : Except TransportError Unit :=
  if size parts ≤ limit then .ok () else .error (oversized (size parts) limit)

/-- The frames that are not over the limit. -/
def admitted (limit : Nat) (frames : List Parts) : List Parts := frames.filter fun f ↦ size f ≤ limit

/-- What a reading is to who asked for it. -/
def Reading.answer : Reading → Except TransportError (Option Parts)
  | .frame parts _ => .ok (some parts)
  | .ended => .ok none
  | .failed e _ => .error e

end Frame

/-- The frames that the writer does not refuse come onto the stream, and no other byte. -/
theorem Writer.offerAll_eq (w : Writer) (frames : List Parts) :
    w.offerAll frames = (frames.map (Frame.admission w.limit),
      w.writeEncoded ((Frame.admitted w.limit frames).flatMap Frame.write)) := by
  induction frames generalizing w with
  | nil => simp [offerAll, Frame.admitted, writeEncoded]
  | cons parts frames ih =>
    by_cases within : Frame.size parts ≤ w.limit
    · rw [offerAll, offer_of_le within]
      simp [ih, writeEncoded, Frame.admission, Frame.admitted, within]
    · rw [offerAll, offer_of_lt (Nat.lt_of_not_le within)]
      simp [ih, Frame.admission, Frame.admitted, within]

namespace Reader

variable {r : Reader} {parts : Parts} {rest : Bytes}

/-- The answers to a number of reads, and the reader after them. -/
def answers : Nat → Reader → List (Except TransportError (Option Parts)) × Reader
  | 0, r => ([], r)
  | n + 1, r =>
    let (reading, r) := r.next
    let (more, r) := answers n r
    (reading.answer :: more, r)

theorem next_write (fits : r.limit < 2 ^ 32) (within : Frame.size parts ≤ r.limit)
    (ahead : r.stream = Frame.write parts ++ rest) :
    r.next = (.frame parts rest, ⟨r.limit, rest, r.received + Frame.size parts⟩) := by
  rw [next, ahead, Frame.read_write fits within]

theorem next_ended (done : r.stream = []) : r.next = (.ended, r) := by
  obtain ⟨limit, stream, received⟩ := r
  cases done
  rfl

/-- Frames within the limit are answered in their order, and what stands behind them is left. -/
theorem answers_write (fits : r.limit < 2 ^ 32) {frames : List Parts}
    (within : ∀ f ∈ frames, Frame.size f ≤ r.limit)
    (ahead : r.stream = frames.flatMap Frame.write ++ rest) :
    answers frames.length r = (frames.map fun f ↦ .ok (some f),
      ⟨r.limit, rest, r.received + (frames.flatMap Frame.write).length⟩) := by
  induction frames generalizing r with
  | nil =>
    obtain ⟨limit, stream, received⟩ := r
    cases ahead
    rfl
  | cons f frames ih =>
    rw [List.flatMap_cons, List.append_assoc] at ahead
    have rest := ih (r := ⟨r.limit, frames.flatMap Frame.write ++ rest, r.received + Frame.size f⟩) fits
      (fun f among ↦ within f (List.mem_cons_of_mem _ among)) rfl
    simp only [List.length_cons, answers, next_write fits (within f List.mem_cons_self) ahead, rest]
    simp [Frame.Reading.answer, Frame.length_write, Nat.add_assoc]

/-- The end of a stream is answered by no frame however often one is asked for. -/
theorem answers_ended (n : Nat) (done : r.stream = []) :
    answers n r = (List.replicate n (.ok none), r) := by
  induction n with
  | zero => rfl
  | succ n ih =>
    simp only [answers, next_ended done, ih]
    rfl

/-- A frame over the limit is answered by an error. -/
theorem answers_large (room : Frame.size parts < 2 ^ 32) (large : r.limit < Frame.size parts)
    (ahead : r.stream = Frame.write parts ++ rest) : ∃ m, (answers 1 r).1 = [.error (.protocol m)] := by
  have said : ∀ n ∈ Frame.numbers parts, n < 256 ^ Frame.wordSize :=
    Frame.numbers_lt_of_size (Nat.lt_of_lt_of_le room (by decide))
  obtain ⟨m, left, failed⟩ := Frame.read_large said large rest
  refine ⟨m, ?_⟩
  rw [answers, next, ahead, failed]
  rfl

end Reader

/-- Of the frames that a writer is offered those over its limit are refused and the others come onto the
stream.  A reader is answered these in their order as long as they are within its own limit.  Having read
all of them it has received what was sent, and the stream has ended; one over its limit is an error. -/
theorem stream_read_back {outLimit inLimit : Nat} (outFits : outLimit < 2 ^ 32) (inFits : inLimit < 2 ^ 32)
    (frames : List Parts) :
    ∃ w, Writer.offerAll ⟨outLimit, []⟩ frames = (frames.map (Frame.admission outLimit), w) ∧
      w.written = (Frame.admitted outLimit frames).flatMap Frame.write ∧
      ∀ good others, Frame.admitted outLimit frames = good ++ others →
        (∀ f ∈ good, Frame.size f ≤ inLimit) →
        ∃ r, Reader.answers good.length ⟨inLimit, w.written, 0⟩ = (good.map fun f ↦ .ok (some f), r) ∧
          r.received = (good.flatMap Frame.write).length ∧
          (others = [] → r.received = w.sent ∧ ∀ n, r.answers n = (List.replicate n (.ok none), r)) ∧
          ∀ f more, others = f :: more → inLimit < Frame.size f →
            ∃ m, (r.answers 1).1 = [.error (.protocol m)] := by
  refine ⟨_, Writer.offerAll_eq _ frames, List.nil_append _, ?_⟩
  rintro good others cut within
  have ahead : (Frame.admitted outLimit frames).flatMap Frame.write =
      good.flatMap Frame.write ++ others.flatMap Frame.write := by
    rw [cut, List.flatMap_append]
  refine ⟨_, Reader.answers_write (r := ⟨inLimit, _, 0⟩) inFits within ahead, Nat.zero_add _, ?_, ?_⟩
  · rintro rfl
    constructor
    · rw [Writer.sent, Writer.writeEncoded, ahead]
      simp
    · intro n
      exact Reader.answers_ended n rfl
  · rintro f more rfl large
    have passed : Frame.size f ≤ outLimit := by
      have among : f ∈ Frame.admitted outLimit frames := cut ▸ List.mem_append_right _ List.mem_cons_self
      simpa using (List.mem_filter.mp among).2
    exact Reader.answers_large (Nat.lt_of_le_of_lt passed outFits) large (List.flatMap_cons ..)

/-- Frames on both sides of two limits, 24 and 64. -/
def parcels : List Parts := [[], [[], [7, 9]], [List.replicate 61 0], [[1]], [List.replicate 30 5], [[2]]]

/-- The reader with the smaller limit stops at the frame over it; the other one reads to the end. -/
theorem stream_read_back_parcels :
    64 < 2 ^ 32 ∧ 24 < 2 ^ 32 ∧ ∃ w : Writer,
      Writer.offerAll ⟨64, []⟩ parcels = ([.ok (), .ok (),
        .error (.protocol "Message size 69 exceeds maximum 64"), .ok (), .ok (), .ok ()], w) ∧
      (∃ r m, Reader.answers 3 ⟨24, w.written, 0⟩ =
          ([.ok (some []), .ok (some [[], [7, 9]]), .ok (some [[1]])], r) ∧
        (r.answers 1).1 = [.error (.protocol m)]) ∧
      ∃ r, Reader.answers 5 ⟨64, w.written, 0⟩ =
          ([.ok (some []), .ok (some [[], [7, 9]]), .ok (some [[1]]), .ok (some [List.replicate 30 5]),
            .ok (some [[2]])], r) ∧
        r.received = w.sent ∧ (r.answers 2).1 = [.ok none, .ok none] := by
  have small : 24 < 2 ^ 32 := by decide
  have large : 64 < 2 ^ 32 := by decide
  refine ⟨large, small, ?_⟩
  obtain ⟨w, offered, written, reads⟩ := stream_read_back large small parcels
  obtain ⟨w', offered', -, reads'⟩ := stream_read_back large large parcels
  obtain rfl : w = w' := by simpa [offered] using congrArg Prod.snd offered'
  obtain ⟨r, read, -, -, stopped⟩ :=
    reads [[], [[], [7, 9]], [[1]]] [[List.replicate 30 5], [[2]]] (by decide) (by decide)
  obtain ⟨m, failed⟩ := stopped _ _ rfl (by decide)
  obtain ⟨r', read', -, ended, -⟩ := reads' _ [] (List.append_nil _).symm (by decide)
  obtain ⟨received, none⟩ := ended rfl
  exact ⟨w, offered, ⟨r, m, read, failed⟩, r', read', received, congrArg Prod.fst (none 2)⟩

end Troupe.Net
