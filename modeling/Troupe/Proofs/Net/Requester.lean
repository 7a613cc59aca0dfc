import Mathlib.Data.List.Nodup
import Troupe.Net.Requester
import Troupe.Proofs.Word

/-!
# Who waits for an answer

What the steps of a requester do to those who wait: whoever stops waiting is settled, and under an id one
waits at most, as long as ids do not repeat.
-/

namespace Troupe.Net

namespace Requester

variable {κ : Type} {r : Requester κ}

/-- Takes an id. -/
def draw (r : Requester κ) : UInt64 × Requester κ := (r.nextId, { r with nextId := r.nextId + 1 })

/-- Registers who waits under an id, unless the connection is lost. -/
def enter (r : Requester κ) (id : UInt64) (k : κ) : Settlements κ × Requester κ :=
  if r.closed then ([(k, lost)], r) else ([], { r with pending := r.pending ++ [(id, k)] })

/-- Registering is drawing an id and entering under it. -/
theorem register_eq (r : Requester κ) (k : κ) : r.register k = (r.draw.1, r.draw.2.enter r.draw.1 k) := by
  by_cases gone : r.closed <;> simp [register, draw, enter, gone]

/-- The id that travels is the one that the parts hold. -/
theorem frameId?_cons (id : UInt64) (rest : Parts) : frameId? (idBytes id :: rest) = some id := by
  have value : Word.value (idBytes id) = id.toNat := Word.value_bytes_of_lt id.toNat_lt
  have length : (idBytes id).length = 8 := Word.length_bytes 8 id.toNat
  rw [frameId?, if_pos length, value, UInt64.ofNat_toNat]

theorem frameId?_parts (id : UInt64) (operation format : String) (payload : Bytes) :
    frameId? (Request.parts (idBytes id) operation format payload) = some id := frameId?_cons id _

/-- A send whose arguments cannot be written is settled at once, and leaves no trace. -/
theorem send_of_unwritable {arguments : List Data} {e : CodecError}
    (unwritable : r.codec.encode (.list arguments) = .error e) (k : κ) (operation : String) :
    r.send k operation arguments = ([(k, .error e.message)], r) := by
  rw [send, unwritable]

/-! ## Settling those who wait -/

/-- Some of those who wait are settled, and nothing else changes but what is left to write and whether the
connection is lost. -/
structure Retires [DecidableEq κ] (r : Requester κ) (x : Settlements κ × Requester κ) : Prop where
  /-- the codec and the limit stay -/
  settings : x.2.codec = r.codec ∧ x.2.limit = r.limit
  /-- no id is drawn -/
  nextId : x.2.nextId = r.nextId
  /-- nobody comes to wait -/
  fewer : x.2.pending ⊆ r.pending
  /-- who does not wait any more is settled -/
  count : ∀ k, (x.2.pending.map Prod.snd).count k + (x.1.map Prod.fst).count k =
    (r.pending.map Prod.snd).count k
  /-- a connection that is lost stays lost -/
  stays : r.closed = true → x.2.closed = true
  /-- nobody waits if the connection is lost -/
  closed : (r.closed = true → r.pending = []) → x.2.closed = true → x.2.pending = []
  /-- nobody gives up writing unless the connection is lost -/
  stopped : x.2.stopped = true → r.stopped = true ∨ x.2.closed = true
  /-- nothing comes to be written -/
  outgoing : x.2.outgoing ⊆ r.outgoing

section Settling

variable (distinct : (r.pending.map Prod.fst).Nodup) (id : UInt64)
  (result : Except String Data)
include distinct

/-- Of those who wait, one waits under an id or nobody does. -/
theorem settle_cases :
    (∃ k, (r.settle id result).1 = [(k, result)] ∧
      r.pending.Perm ((id, k) :: (r.settle id result).2.pending)) ∨
    (r.settle id result).1 = [] ∧ (∀ k, (id, k) ∉ r.pending) ∧
      (r.settle id result).2.pending = r.pending := by
  cases found : r.pending.find? fun p ↦ p.1 = id with
  | none =>
    have nobody : ∀ k, (id, k) ∉ r.pending := fun k waits ↦ by
      simpa using List.find?_eq_none.mp found (id, k) waits
    refine .inr ⟨by simp [settle, remove, found], nobody, ?_⟩
    refine List.filter_eq_self.mpr fun p waits ↦ ?_
    simpa using List.find?_eq_none.mp found p waits
  | some p =>
    obtain ⟨id', k⟩ := p
    obtain rfl : id' = id := by simpa using List.find?_some found
    refine .inl ⟨k, by simp [settle, remove, found], ?_⟩
    -- Ids do not repeat, so all others pass the filter.
    obtain ⟨before, after, all⟩ := List.append_of_mem (List.mem_of_find?_eq_some found)
    rw [all, List.map_append, List.map_cons, List.nodup_middle, List.nodup_cons] at distinct
    have others : ∀ p ∈ before ++ after, p.1 ≠ id' := fun p among same ↦
      distinct.1 (by rw [← List.map_append]; exact List.mem_map.mpr ⟨p, among, same⟩)
    have left : (r.settle id' result).2.pending = before ++ after := by
      simp only [List.mem_append] at others
      simp only [settle, remove, all, List.filter_append, List.filter_cons]
      rw [List.filter_eq_self.mpr fun p among ↦ by simpa using others p (.inl among),
        List.filter_eq_self.mpr fun p among ↦ by simpa using others p (.inr among)]
      simp
    rw [left, all]
    exact List.perm_middle

/-- Settling an id settles who waits under it. -/
theorem mem_settle_iff {k : κ} {result' : Except String Data} :
    (k, result') ∈ (r.settle id result).1 ↔ (id, k) ∈ r.pending ∧ result' = result := by
  rcases settle_cases distinct id result with ⟨k', settled, all⟩ | ⟨settled, nobody, -⟩
  · rw [settled, List.mem_singleton, Prod.mk.injEq]
    refine and_congr_left fun _ ↦ ⟨?_, fun waits ↦ ?_⟩
    · rintro rfl
      exact all.mem_iff.mpr (List.mem_cons_self ..)
    · have ids := (all.map Prod.fst).nodup_iff.mp distinct
      rw [List.map_cons, List.nodup_cons] at ids
      rcases List.mem_cons.mp (all.mem_iff.mp waits) with same | other
      · exact congrArg Prod.snd same
      · exact absurd (List.mem_map_of_mem other) ids.1
  · simp [settled, nobody]

theorem retires_settle [DecidableEq κ] : r.Retires (r.settle id result) where
  settings := ⟨rfl, rfl⟩
  nextId := rfl
  fewer := List.filter_subset_self r.pending
  count k := by
    rcases settle_cases distinct id result with ⟨k', settled, all⟩ | ⟨settled, -, same⟩
    · rw [settled, (all.map Prod.snd).count_eq]
      simp [List.count_cons]
    · simp [settled, same]
  stays gone := gone
  closed empty gone := by
    simp [settle, remove, empty gone]
  stopped := .inl
  outgoing := List.Subset.refl _

end Settling

/-- Nobody waits under an id that was settled. -/
theorem mem_pending_settle_iff (id : UInt64) (result : Except String Data) {p : UInt64 × κ} :
    p ∈ (r.settle id result).2.pending ↔ p ∈ r.pending ∧ p.1 ≠ id := by
  simp [settle, remove]

/-- Losing the connection settles all who wait. -/
theorem retires_close [DecidableEq κ] (r : Requester κ) : r.Retires r.close :=
  ⟨⟨rfl, rfl⟩, rfl, List.nil_subset _, fun k ↦ by simp [close, Function.comp_def], fun _ ↦ rfl,
    fun _ _ ↦ rfl, .inl, List.Subset.refl _⟩

theorem retires_stop [DecidableEq κ] (r : Requester κ) : r.Retires r.stop :=
  ⟨⟨rfl, rfl⟩, rfl, List.nil_subset _, fun k ↦ by simp [stop, close, Function.comp_def], fun _ ↦ rfl,
    fun _ _ ↦ rfl, fun _ ↦ .inr rfl, List.nil_subset _⟩

/-- Nothing may happen but that less is left to write. -/
theorem retires_outgoing [DecidableEq κ] {rest : List Parts} (less : rest ⊆ r.outgoing) :
    r.Retires ([], { r with outgoing := rest }) :=
  ⟨⟨rfl, rfl⟩, rfl, List.Subset.refl _, fun k ↦ by simp, id, id, .inl, less⟩

/-- Less is left to write, and some of those who wait are settled. -/
theorem Retires.of_outgoing [DecidableEq κ] {rest : List Parts} (less : rest ⊆ r.outgoing)
    {x : Settlements κ × Requester κ} (h : Retires { r with outgoing := rest } x) : r.Retires x :=
  ⟨h.settings, h.nextId, h.fewer, h.count, h.stays, h.closed, h.stopped,
    List.Subset.trans h.outgoing less⟩

/-- A request that fits a frame is written. -/
theorem writeNext_of_fits {parts : Parts} {rest : List Parts} (next : r.outgoing = parts :: rest)
    (fits : Frame.size parts ≤ r.limit) :
    r.writeNext = (some (Frame.write parts), [], { r with outgoing := rest }) := by
  have framed : Frame.encode r.limit parts = .ok (Frame.write parts) :=
    Frame.encode_eq_ok_iff.mpr ⟨fits, rfl⟩
  simp only [writeNext, next, framed]

/-- A request that is too large for a frame is settled with the error of its size. -/
theorem writeNext_of_large {parts : Parts} {rest : List Parts} (next : r.outgoing = parts :: rest)
    (large : r.limit < Frame.size parts) {id : UInt64} (carries : frameId? parts = some id) :
    r.writeNext = (none, settle { r with outgoing := rest } id
      (.error (Frame.oversized (Frame.size parts) r.limit).message)) := by
  have failed : Frame.encode r.limit parts = .error (Frame.oversized (Frame.size parts) r.limit) :=
    if_pos large
  simp only [writeNext, next, failed, carries]

theorem retires_writeNext [DecidableEq κ] (distinct : (r.pending.map Prod.fst).Nodup) :
    r.Retires r.writeNext.2 := by
  rw [writeNext]
  split
  · exact retires_outgoing (List.Subset.refl _)
  · rename_i parts rest all
    have less : rest ⊆ r.outgoing := all ▸ List.subset_cons_self parts rest
    dsimp only
    split
    · exact retires_outgoing less
    · split
      · exact retires_outgoing less
      · exact .of_outgoing less (retires_settle (r := { r with outgoing := rest }) distinct _ _)

theorem retires_receive [DecidableEq κ] (distinct : (r.pending.map Prod.fst).Nodup) (parts : Parts) :
    r.Retires (r.receive parts) := by
  rw [receive]
  split
  · exact retires_outgoing (List.Subset.refl _)
  · exact retires_settle distinct _ _

end Requester

end Troupe.Net
