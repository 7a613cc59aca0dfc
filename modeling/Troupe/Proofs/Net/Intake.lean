import Troupe.Proofs.Net.Canonical
import Troupe.Proofs.Net.Stream

/-!
# The frames of a stream

Whatever its bytes, a stream is a sequence of frames up to its end, or up to where it cannot be read any
further (`Reader.Yields`).  Who reads a connection takes these frames one after the other.
-/

namespace Troupe.Net

/-- At the end of a stream there is no frame. -/
theorem Frame.read_nil_ne (limit : Nat) (parts : Parts) (rest : Bytes) :
    Frame.read limit [] ≠ .frame parts rest := by
  have read : Frame.read limit [] = .ended := rfl
  rw [read]
  nofun

namespace Reader

/-- The frames that are read one after the other, until none is read. -/
inductive Yields : Reader → List Parts → Prop where
  /-- no frame comes -/
  | finish {r : Reader} (none : ∀ parts rest, r.next.1 ≠ .frame parts rest) : Yields r []
  /-- a frame comes, and others after it -/
  | frame {r r' : Reader} {parts : Parts} {rest : Bytes} {frames : List Parts}
      (first : r.next = (.frame parts rest, r')) (more : Yields r' frames) : Yields r (parts :: frames)

/-- A frame that is read is taken from the stream. -/
theorem length_lt_of_next {r r' : Reader} {parts : Parts} {rest : Bytes}
    (first : r.next = (.frame parts rest, r')) : r'.stream.length < r.stream.length := by
  obtain ⟨shape, -, rfl⟩ := r.write_of_next first
  rw [shape, List.length_append]
  exact Nat.lt_add_of_pos_left (List.length_pos_of_ne_nil (Frame.write_ne_nil parts))

/-- Every stream has its frames. -/
theorem exists_yields (r : Reader) : ∃ frames, r.Yields frames := by
  induction size : r.stream.length using Nat.strongRecOn generalizing r with
  | ind n ih =>
    by_cases some : ∃ parts rest, r.next.1 = .frame parts rest
    · obtain ⟨parts, rest, read⟩ := some
      have first : r.next = (.frame parts rest, r.next.2) := Prod.ext read rfl
      obtain ⟨frames, more⟩ := ih _ (size ▸ length_lt_of_next first) r.next.2 rfl
      exact ⟨parts :: frames, .frame first more⟩
    · exact ⟨[], .finish fun parts rest read ↦ some ⟨parts, rest, read⟩⟩

/-- Frames within the limit are those of the stream that is written of them, if no other comes behind. -/
theorem yields_write {limit : Nat} (fits : limit < 2 ^ 32) {frames : List Parts}
    (within : ∀ f ∈ frames, Frame.size f ≤ limit) {tail : Bytes}
    (ends : ∀ parts rest, Frame.read limit tail ≠ .frame parts rest) (received : Nat) :
    Yields ⟨limit, frames.flatMap Frame.write ++ tail, received⟩ frames := by
  induction frames generalizing received with
  | nil =>
    refine .finish fun parts rest ↦ ?_
    rw [next_fst]
    exact ends parts rest
  | cons f frames ih =>
    have first := next_write (r := ⟨limit, (f :: frames).flatMap Frame.write ++ tail, received⟩) fits
      (within f List.mem_cons_self) (by rw [List.flatMap_cons, List.append_assoc])
    exact .frame first (ih (fun g among ↦ within g (List.mem_cons_of_mem _ among)) _)

end Reader

end Troupe.Net
