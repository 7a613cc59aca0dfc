import Troupe.Proofs.Net.Exchange

/-!
# Answers reach those who asked

Whatever happens in an exchange, the bytes under way are the frames of requests and answers that a ledger
knows (`Kept`).  So a frame is always read as it was written, a message is what some send asked for, and an
answer settles the promise of its own request.

The main statement is `faithful_of_run`.
-/

namespace Troupe.Net

open Requester

namespace Exchange

variable [Wording]

/-! ## The end that asks -/

/-- The end that asks is sound, and its arguments can be read back. -/
structure Asking (format : Format) (limit : Nat) (s : Session) : Prop where
  /-- promises wait or were settled -/
  sound : s.Sound
  /-- both ends have one format and one limit -/
  settings : s.requester.codec = format.codec ∧ s.requester.limit = limit
  /-- nobody gives up writing unless the connection is lost -/
  stopped : s.requester.stopped = true → s.requester.closed = true
  /-- arguments are read back from their bytes -/
  arguments : ∀ send ∈ s.sends, format.RoundTrips (.list send.arguments) ∧
    send.payload = format.encode (.list send.arguments)

theorem asking_start (format : Format) (limit : Nat) : Asking format limit (.start format.codec limit) :=
  ⟨Session.sound_start format.codec limit, ⟨rfl, rfl⟩, id, fun _ among ↦ absurd among List.not_mem_nil⟩

/-- Whatever happens at the end that asks, it stays so. -/
theorem Asking.step {format : Format} {limit : Nat} {s s' : Session} (h : Asking format limit s)
    (few : s.sends.length < 2 ^ 64) {e : Session.Event}
    (drawn : ∀ operation arguments, e = .draw operation arguments → format.RoundTrips (.list arguments))
    (step : s.step? e = some s') : Asking format limit s' := by
  have lasts := h.sound.extends few step
  refine ⟨h.sound.step few step, ⟨lasts.settings.1.trans h.settings.1, lasts.settings.2.trans h.settings.2⟩,
    fun gone ↦ ?_, Session.arguments_of_step (fun arguments payload ↦
      format.RoundTrips (.list arguments) ∧ payload = format.encode (.list arguments)) step h.arguments
        fun operation arguments payload draws written ↦ ⟨drawn operation arguments draws, ?_⟩⟩
  · rcases lasts.stopped gone with before | now
    · exact lasts.closed (h.stopped before)
    · exact now
  · rw [h.settings.1, Format.codec_encode] at written
    exact (Except.ok.inj written).symm

/-! ## What every event keeps -/

/-- Everything is where the ledger says, and what promises got is genuine. -/
structure Kept (format : Format) (limit : Nat) (l : Ledger) (x : Exchange) : Prop where
  /-- the end that asks can ask -/
  asking : Asking format limit x.session
  /-- the requests to be written are those of the queue -/
  outgoing : x.session.requester.outgoing = l.queue.map (Call.parts format)
  /-- the bytes on their way up are the frames of requests -/
  up : x.up = l.flight.flatMap fun c ↦ Frame.write (c.parts format)
  /-- requests on their way fit frames -/
  fits : ∀ c ∈ l.flight, Frame.size (c.parts format) ≤ limit
  /-- the end that answers can answer what it did not -/
  serving : Serving format limit l.messages x.served x.outcomes x.replier
  /-- the bytes on their way down are the frames of answers -/
  down : x.down = l.answers.flatMap fun a ↦ Frame.write (a.1.reply format a.2)
  /-- answers on their way are the outcomes of their messages -/
  answers : ∀ a ∈ l.answers, Travels format limit a.2 ∧
    ∃ k, l.messages[k]? = some a.1 ∧ (k, a.2) ∈ x.outcomes
  /-- the requests are those of sends that have returned -/
  returned : ∀ c ∈ l.calls, x.session.sends[c.number]? = some c.send ∧ c.send.phase = .returned
  /-- a send has one request at most -/
  once : (l.calls.map Call.number).Nodup
  /-- promises got what is their own -/
  genuine : ∀ n r, (n, r) ∈ x.session.settled → x.Genuine n r
  /-- who waits has a request under way, or is about to hand it over -/
  located : ∀ id n, (id, n) ∈ x.session.requester.pending →
    (∃ send, x.session.sends[n]? = some send ∧ send.phase = .entered) ∨ l.Holds x.outcomes n

theorem kept_start (format : Format) (limit : Nat) : Kept format limit ⟨[], [], [], []⟩ (start format limit) where
  asking := asking_start format limit
  outgoing := rfl
  up := rfl
  fits c among := absurd among List.not_mem_nil
  serving := ⟨rfl, List.nodup_nil, fun k among ↦ absurd among List.not_mem_nil, fun k t ↦ by
    simp [start, Replier.start], rfl, rfl⟩
  down := rfl
  answers a among := absurd among List.not_mem_nil
  returned c among := absurd among List.not_mem_nil
  once := List.nodup_nil
  genuine n r among := absurd among List.not_mem_nil
  located id n among := absurd among List.not_mem_nil

namespace Kept

variable {format : Format} {limit : Nat} {l : Ledger} {x : Exchange}

/-- A request on its way can be read back. -/
theorem roundTrips (h : Kept format limit l x) {c : Call} (among : c ∈ l.calls) :
    format.RoundTrips (.list c.send.arguments) :=
  (h.asking.arguments _ (List.mem_of_getElem? (h.returned c among).1)).1

/-- A request under way waits under the id of its send. -/
theorem id_eq (h : Kept format limit l x) {c : Call} (among : c ∈ l.calls) {id : UInt64}
    (waits : (id, c.number) ∈ x.session.requester.pending) : id = c.send.id := by
  rw [(h.asking.sound.lt_of_pending waits).2, h.asking.sound.ids (h.returned c among).1]

/-- Messages are the requests of their sends. -/
theorem serves (h : Kept format limit l x) {k : Nat} {c : Call} (found : l.messages[k]? = some c) :
    x.Serves c.number k := by
  have among : c ∈ l.calls := by
    simp [Ledger.calls, List.mem_of_getElem? found]
  refine ⟨c.send, format, (h.returned c among).1, h.asking.settings.1, ?_⟩
  rw [h.serving.served, List.getElem?_map, found]
  rfl

/-! ### The end that asks -/

section Client

variable {s' : Session} {e : Session.Event}

/-- Requests stay those of their sends. -/
theorem returned_of_step (h : Kept format limit l x) (few : x.session.sends.length < 2 ^ 64)
    (step : x.session.step? e = some s') {c : Call} (among : c ∈ l.calls) :
    s'.sends[c.number]? = some c.send ∧ c.send.phase = .returned := by
  obtain ⟨there, returned⟩ := h.returned c among
  obtain ⟨phase, found, stays⟩ := (h.asking.sound.extends few step).sends there
  exact ⟨by rw [found, stays returned, ← returned], returned⟩

/-- What the end that asks does is kept, whatever it hands over. -/
theorem of_session (h : Kept format limit l x) (few : x.session.sends.length < 2 ^ 64)
    (isLocal : e.isLocal = true) (travels : (Event.client e).Travels format limit)
    (step : x.session.step? e = some s') (queue : List Call)
    (outgoing : s'.requester.outgoing = queue.map (Call.parts format))
    (returned : ∀ c ∈ queue, s'.sends[c.number]? = some c.send ∧ c.send.phase = .returned)
    (once : ((l.messages ++ l.flight ++ queue).map Call.number).Nodup)
    (located : ∀ id n, (id, n) ∈ s'.requester.pending →
      (∃ send, s'.sends[n]? = some send ∧ send.phase = .entered) ∨
        { l with queue }.Holds x.outcomes n) :
    Kept format limit { l with queue } { x with session := s' } := by
  have lasts := h.asking.sound.extends few step
  have ext : x.Extends { x with session := s' } :=
    ⟨lasts, List.prefix_refl _, List.Subset.refl _⟩
  refine { h with
    asking := h.asking.step few (fun operation arguments drawn ↦ ?_) step
    outgoing := outgoing
    returned := fun c among ↦ ?_
    once := once
    genuine := genuine_of_settles h.genuine ext (h.asking.sound.settles few step) fun n r due ↦ ?_
    located := located }
  · subst drawn
    exact travels
  · rcases List.mem_append.mp among with old | new
    · exact h.returned_of_step few step (List.mem_append_left _ old)
    · exact returned c new
  · cases due with
    | refused n gone => exact .lost (lasts.closed gone)
    | undelivered n send found stopped waits => exact .lost (lasts.closed (h.asking.stopped stopped))
    | oversized => cases isLocal
    | answered => cases isLocal
    | lost id n waits | stopped id n waits =>
      cases step
      exact .lost rfl

/-- What the end that asks does without handing a request over is kept. -/
theorem of_session_same (h : Kept format limit l x) (few : x.session.sends.length < 2 ^ 64)
    (isLocal : e.isLocal = true) (travels : (Event.client e).Travels format limit)
    (step : x.session.step? e = some s')
    (outgoing : s'.requester.outgoing = x.session.requester.outgoing)
    (located : ∀ id n, (id, n) ∈ s'.requester.pending →
      (∃ send, s'.sends[n]? = some send ∧ send.phase = .entered) ∨ l.Holds x.outcomes n) :
    Kept format limit l { x with session := s' } :=
  h.of_session few isLocal travels step l.queue (outgoing.trans h.outgoing)
    (fun _ among ↦ h.returned_of_step few step (List.mem_append_right _ among)) h.once located

theorem enter (h : Kept format limit l x) (few : x.session.sends.length < 2 ^ 64) {n : Nat}
    (step : x.session.step? (.enter n) = some s') : Kept format limit l { x with session := s' } := by
  refine h.of_session_same (e := .enter n) few rfl trivial step ?_ fun id' m waits ↦ ?_ <;>
    simp only [Session.step?] at step <;> split at step <;> cases step
  · rw [Session.after, Requester.enter]
    split <;> rfl
  · rename_i id operation arguments payload found
    by_cases gone : x.session.requester.closed
    · simp [Session.after, Requester.enter, gone, h.asking.sound.closed gone] at waits
    · simp only [Session.after, Requester.enter, gone, Bool.false_eq_true, if_false, List.mem_append,
        List.mem_singleton, Prod.mk.injEq] at waits ⊢
      rcases waits with old | ⟨-, rfl⟩
      · refine (h.located id' m old).imp_left ?_
        rintro ⟨send, there, entered⟩
        have apart : n ≠ m := by
          rintro rfl
          obtain rfl := Option.some.inj (found.symm.trans there)
          cases entered
        refine ⟨send, ?_, entered⟩
        rw [Session.getElem?_move, there, Option.map_some, if_neg apart]
      · refine .inl ⟨⟨id, operation, arguments, payload, .entered⟩, ?_, rfl⟩
        rw [Session.getElem?_move, found, Option.map_some, if_pos rfl]

theorem handOver (h : Kept format limit l x) (few : x.session.sends.length < 2 ^ 64) {n : Nat}
    (step : x.session.step? (.handOver n) = some s') :
    ∃ l', Kept format limit l' { x with session := s' } := by
  have happens := step
  simp only [Session.step?] at happens
  split at happens
  · rename_i id operation arguments payload found
    cases happens
    by_cases stopped : x.session.requester.stopped
    · have refused : x.session.requester.handOver id operation payload =
          x.session.requester.settle id lost := if_pos stopped
      rw [refused] at step ⊢
      refine ⟨l, h.of_session_same (e := .handOver n) few rfl trivial step rfl fun id' m waits ↦ ?_⟩
      have before := ((mem_pending_settle_iff id lost).mp waits).1
      rw [h.asking.sound.closed (h.asking.stopped stopped)] at before
      exact absurd before List.not_mem_nil
    · let c : Call := ⟨n, ⟨id, operation, arguments, payload, .returned⟩⟩
      have there : (x.session.move n .returned).sends[n]? = some c.send := by
        rw [Session.getElem?_move, found, Option.map_some, if_pos rfl]
      have parts : Request.parts (idBytes id) operation x.session.requester.codec.name payload =
          c.parts format := by
        have bytes : payload = format.encode (.list arguments) :=
          (h.asking.arguments _ (List.mem_of_getElem? found)).2
        rw [h.asking.settings.1, bytes]
        rfl
      have handed : x.session.requester.handOver id operation payload =
          ([], { x.session.requester with outgoing := x.session.requester.outgoing ++ [c.parts format] }) := by
        rw [Requester.handOver, if_neg stopped, parts]
      rw [handed] at step ⊢
      refine ⟨_, h.of_session (e := .handOver n) few rfl trivial step (l.queue ++ [c]) ?_
        (fun c' among ↦ ?_) ?_ fun id' m waits ↦ ?_⟩
      · simp only [Session.after, h.outgoing, List.map_append, List.map_singleton]
      · rcases List.mem_append.mp among with old | new
        · exact h.returned_of_step few step (List.mem_append_right _ old)
        · rw [List.mem_singleton.mp new]
          exact ⟨there, rfl⟩
      · rw [← List.append_assoc, List.map_append, List.map_singleton, ← List.concat_eq_append]
        refine h.once.concat fun handed ↦ ?_
        -- Requests of the ledger are those of sends that have returned, and this one has not.
        obtain ⟨c', among, same⟩ := List.mem_map.mp handed
        obtain ⟨before, ended⟩ := h.returned c' among
        rw [same] at before
        rw [← Option.some.inj (found.symm.trans before)] at ended
        cases ended
      · rcases h.located id' m waits with ⟨send, before, entered⟩ | holds
        · by_cases same : n = m
          · subst same
            exact .inr (.queued c (List.mem_append_right _ (List.mem_singleton_self c)))
          · refine .inl ⟨send, ?_, entered⟩
            change (x.session.move n .returned).sends[m]? = some send
            rw [Session.getElem?_move, before, Option.map_some, if_neg same]
        · exact .inr (holds.handOver c)
  · cases happens

/-- Whatever the end that asks does is kept. -/
theorem client (h : Kept format limit l x) (few : x.session.sends.length < 2 ^ 64)
    (isLocal : e.isLocal = true) (travels : (Event.client e).Travels format limit)
    (step : x.session.step? e = some s') : ∃ l', Kept format limit l' { x with session := s' } := by
  cases e with
  | write | receive parts => cases isLocal
  | draw operation arguments =>
    obtain ⟨payload, -, rfl⟩ := Session.exists_of_draw step
    refine ⟨l, h.of_session_same few isLocal travels step rfl fun id n waits ↦ ?_⟩
    · refine (h.located id n waits).imp_left ?_
      rintro ⟨send, found, entered⟩
      exact ⟨send, by rw [List.getElem?_append_left (List.getElem?_eq_some_iff.mp found).1, found], entered⟩
  | enter n => exact ⟨l, h.enter few step⟩
  | handOver n => exact h.handOver few step
  | lose =>
    refine ⟨l, h.of_session_same few isLocal travels step ?_ fun id n waits ↦ ?_⟩ <;> cases step
    · rfl
    · exact absurd waits List.not_mem_nil
  | stop =>
    have less : (l.messages ++ l.flight ++ []).Sublist l.calls := by
      rw [List.append_nil]
      exact List.sublist_append_left _ _
    refine ⟨_, h.of_session few isLocal travels step [] ?_
      (fun c among ↦ absurd among List.not_mem_nil) (h.once.sublist (less.map _)) fun id n waits ↦ ?_⟩ <;>
      cases step
    · rfl
    · exact absurd waits List.not_mem_nil

end Client

/-! ### Requests and answers under way -/

/-- What the task that writes does is kept, whatever it leaves in the queue and brings on its way. -/
theorem of_write (h : Kept format limit l x) (few : x.session.sends.length < 2 ^ 64)
    (queue flight : List Call) (less : (l.messages ++ flight ++ queue).Sublist l.calls)
    (outgoing : x.session.requester.writeNext.2.2.outgoing = queue.map (Call.parts format))
    (up : x.up ++ x.session.requester.writeNext.1.getD [] =
      flight.flatMap fun c ↦ Frame.write (c.parts format))
    (fits : ∀ c ∈ flight, Frame.size (c.parts format) ≤ limit)
    (holds : ∀ id n, (id, n) ∈ x.session.requester.pending →
      (id, n) ∈ x.session.requester.writeNext.2.2.pending → l.Holds x.outcomes n →
        { l with queue, flight }.Holds x.outcomes n) :
    Kept format limit { l with queue, flight } { x with
      session := x.session.after x.session.requester.writeNext.2
      up := x.up ++ x.session.requester.writeNext.1.getD [] } := by
  have step : x.session.step? .write = some (x.session.after x.session.requester.writeNext.2) := rfl
  have ext : x.Extends { x with
      session := x.session.after x.session.requester.writeNext.2
      up := x.up ++ x.session.requester.writeNext.1.getD [] } :=
    ⟨h.asking.sound.extends few step, List.prefix_refl _, List.Subset.refl _⟩
  have retires := retires_writeNext (h.asking.sound.distinct few)
  refine { h with
    asking := h.asking.step few (fun _ _ drawn ↦ by cases drawn) step
    outgoing := outgoing
    up := up
    fits := fits
    returned := fun c among ↦ h.returned c (less.subset among)
    once := h.once.sublist (less.map _)
    genuine := genuine_of_settles h.genuine ext (h.asking.sound.settles few step) fun n r due ↦ ?_
    located := fun id n waits ↦ ?_ }
  · cases due with
    | oversized n send rest found next large waits => exact (Genuine.oversized send found large).mono ext
  · have before := retires.fewer waits
    exact (h.located id n before).imp_right (holds id n before waits)

/-- A request may be written, or turn out too large. -/
theorem write (h : Kept format limit l x) (few : x.session.sends.length < 2 ^ 64) :
    ∃ l', Kept format limit l' { x with
      session := x.session.after x.session.requester.writeNext.2
      up := x.up ++ x.session.requester.writeNext.1.getD [] } := by
  cases waiting : l.queue with
  | nil =>
    have nothing : x.session.requester.writeNext = (none, [], x.session.requester) := by
      rw [writeNext, h.outgoing, waiting]
      rfl
    refine ⟨_, h.of_write few l.queue l.flight (List.Sublist.refl _) ?_ ?_ h.fits fun _ _ _ _ ↦ id⟩
    · rw [nothing]
      exact h.outgoing
    · rw [nothing, Option.getD_none, List.append_nil]
      exact h.up
  | cons c queue =>
    have next : x.session.requester.outgoing = c.parts format :: queue.map (Call.parts format) := by
      rw [h.outgoing, waiting, List.map_cons]
    -- A request that fits goes from the queue on its way; one that is too large leaves the ledger, and
    -- its promise does not wait any more.
    by_cases fits : Frame.size (c.parts format) ≤ x.session.requester.limit
    · have written := writeNext_of_fits next fits
      have same : l.messages ++ (l.flight ++ [c]) ++ queue = l.calls := by
        simp [Ledger.calls, waiting]
      refine ⟨_, h.of_write few queue (l.flight ++ [c]) (same ▸ List.Sublist.refl _) ?_ ?_
        (fun c' flying ↦ ?_) fun id n _ _ holds ↦ ?_⟩
      · rw [written]
      · rw [written, List.flatMap_append, List.flatMap_singleton, h.up, Option.getD_some]
      · rcases List.mem_append.mp flying with old | new
        · exact h.fits c' old
        · rw [List.mem_singleton.mp new, ← h.asking.settings.2]
          exact fits
      · cases holds with
        | queued c' queued =>
          rcases List.mem_cons.mp (waiting ▸ queued) with rfl | later
          · exact .flying c' (List.mem_append_right _ (List.mem_singleton_self c'))
          · exact .queued c' later
        | flying c' flying => exact .flying c' (List.mem_append_left _ flying)
        | message k c' found still => exact .message k c' found still
        | answered a answered => exact .answered a answered
    · have written := writeNext_of_large next (Nat.lt_of_not_le fits) (frameId?_parts c.send.id _ _ _)
      have among : c ∈ l.calls := List.mem_append_right _ (waiting ▸ List.mem_cons_self ..)
      have less : (l.messages ++ l.flight ++ queue).Sublist l.calls := by
        rw [Ledger.calls, waiting]
        exact (List.sublist_cons_self c queue).append_left _
      refine ⟨_, h.of_write few queue l.flight less ?_ ?_ h.fits fun id n before waits holds ↦ ?_⟩
      · rw [written]
        rfl
      · rw [written, Option.getD_none, List.append_nil]
        exact h.up
      · rw [written] at waits
        have other := ((mem_pending_settle_iff c.send.id _).mp waits).2
        cases holds with
        | queued c' queued =>
          rcases List.mem_cons.mp (waiting ▸ queued) with rfl | later
          · exact absurd (h.id_eq among before) other
          · exact .queued c' later
        | flying c' flying => exact .flying c' flying
        | message k c' found still => exact .message k c' found still
        | answered a answered => exact .answered a answered

/-- The next frame on its way up is a request, and becomes a message. -/
theorem step?_serve (h : Kept format limit l x) (room : limit < 2 ^ 32) {c : Call} {flight : List Call}
    (flying : l.flight = c :: flight) :
    x.step? .serve = some { x with
      up := flight.flatMap fun c ↦ Frame.write (c.parts format)
      replier := x.replier.await x.served.length (c.ticket format)
      served := x.served ++ [(idBytes c.send.id, c.request format)] } := by
  have among : c ∈ l.calls := by simp [Ledger.calls, flying]
  have framed : Frame.read x.replier.writer.limit x.up =
      .frame (c.parts format) (flight.flatMap fun c ↦ Frame.write (c.parts format)) := by
    rw [h.up, flying, List.flatMap_cons, h.serving.writes.2]
    exact Frame.read_write room (h.fits c (flying ▸ List.mem_cons_self ..)) _
  have accepted : x.replier.accept x.served.length (c.parts format) =
      (some (idBytes c.send.id, c.request format), x.replier.await x.served.length (c.ticket format)) :=
    Replier.accept_write (h.roundTrips among) _ _
  simp only [step?, framed, accepted, told, Replier.await, Option.toList_some, List.drop_length,
    List.append_nil]

/-- A request may become a message. -/
theorem serve (h : Kept format limit l x) (room : limit < 2 ^ 32) {x' : Exchange}
    (step : x.step? .serve = some x') : ∃ l', Kept format limit l' x' := by
  cases flying : l.flight with
  | nil =>
    have nothing : x.up = [] := by rw [h.up, flying, List.flatMap_nil]
    simp only [step?, nothing] at step
    cases step
  | cons c flight =>
    rw [h.step?_serve room flying] at step
    cases step
    have same : { l with flight, messages := l.messages ++ [c] }.calls = l.calls := by
      simp [Ledger.calls, flying]
    have stays {k : Nat} {c' : Call} (found : l.messages[k]? = some c') :
        (l.messages ++ [c])[k]? = some c' := by
      rw [List.getElem?_append_left (List.getElem?_eq_some_iff.mp found).1, found]
    refine ⟨{ l with flight, messages := l.messages ++ [c] }, { h with
      up := rfl
      fits := fun c' later ↦ h.fits c' (flying ▸ List.mem_cons_of_mem c later)
      serving := h.serving.await c
      answers := fun a answered ↦ (h.answers a answered).imp_right fun ⟨k, found, outcome⟩ ↦
        ⟨k, stays found, outcome⟩
      returned := fun c' among ↦ h.returned c' (same ▸ among)
      once := by rw [same]; exact h.once
      genuine := fun n r settled ↦ (h.genuine n r settled).mono
        ⟨x.session.extends_refl, List.prefix_append _ _, List.Subset.refl _⟩
      located := fun id n waits ↦ (h.located id n waits).imp_right fun holds ↦ ?_ }⟩
    cases holds with
    | queued c' queued => exact .queued c' queued
    | flying c' among =>
      rcases List.mem_cons.mp (flying ▸ among) with rfl | later
      -- The new message has the next number, and no outcome has that.
      · refine .message l.messages.length c' (by simp) fun settled ↦ ?_
        exact absurd (h.serving.known _ settled) (Nat.lt_irrefl _)
      · exact .flying c' later
    | message k c' found still => exact .message k c' (stays found) still
    | answered a answered => exact .answered a answered

/-- The mailbox may come to the outcome of a message. -/
theorem settle (h : Kept format limit l x) {k : Nat} {o : Outcome Data} (travels : Travels format limit o)
    {x' : Exchange} (step : x.step? (.settle k o) = some x') : ∃ l', Kept format limit l' x' := by
  simp only [step?] at step
  split at step
  · rename_i fresh
    cases step
    obtain ⟨bound, still⟩ := fresh
    rw [h.serving.length] at bound
    obtain ⟨c, found⟩ : ∃ c, l.messages[k]? = some c := ⟨_, List.getElem?_eq_getElem bound⟩
    obtain ⟨serving, written⟩ := h.serving.settle found still travels
    have outcomes : x.outcomes ⊆ x.outcomes ++ [(k, o)] := List.subset_append_left _ _
    refine ⟨{ l with answers := l.answers ++ [(c, o)] }, { h with
      serving := serving
      down := ?_
      answers := fun a answered ↦ ?_
      genuine := fun n r settled ↦ (h.genuine n r settled).mono
        ⟨x.session.extends_refl, List.prefix_refl _, outcomes⟩
      located := fun id n waits ↦ (h.located id n waits).imp_right fun holds ↦ ?_ }⟩
    · simp only [told, written, List.drop_left, h.down, List.flatMap_append, List.flatMap_singleton]
    · rcases List.mem_append.mp answered with old | new
      · exact (h.answers a old).imp_right fun ⟨k, found, outcome⟩ ↦ ⟨k, found, outcomes outcome⟩
      · rw [List.mem_singleton.mp new]
        exact ⟨travels, k, found, List.mem_append_right _ (List.mem_singleton_self _)⟩
    · cases holds with
      | queued c' queued => exact .queued c' queued
      | flying c' among => exact .flying c' among
      | message k' c' found' still' =>
        by_cases same : k' = k
        · subst same
          obtain rfl := Option.some.inj (found.symm.trans found')
          exact .answered (c, o) (List.mem_append_right _ (List.mem_singleton_self _))
        · refine .message k' c' found' fun settled ↦ ?_
          rw [told, List.map_append, List.mem_append] at settled
          rcases settled with old | new
          · exact still' old
          · exact same (List.mem_singleton.mp new)
      | answered a answered => exact .answered a (List.mem_append_left _ answered)
  · cases step

/-- The next frame on its way down is an answer. -/
theorem read_down (h : Kept format limit l x) (room : limit < 2 ^ 32) {a : Call × Outcome Data}
    {answers : List (Call × Outcome Data)} (next : l.answers = a :: answers) :
    Frame.read x.session.requester.limit x.down = .frame (a.1.reply format a.2)
      (answers.flatMap fun a ↦ Frame.write (a.1.reply format a.2)) := by
  have travels := (h.answers a (next ▸ List.mem_cons_self ..)).1
  rw [h.down, next, List.flatMap_cons, h.asking.settings.2]
  exact Frame.read_write room (travels.2 a.1.send.id) _

/-- An answer may be taken by the end that asks. -/
theorem deliver (h : Kept format limit l x) (room : limit < 2 ^ 32) (few : x.session.sends.length < 2 ^ 64)
    {x' : Exchange} (step : x.step? .deliver = some x') : ∃ l', Kept format limit l' x' := by
  cases next : l.answers with
  | nil =>
    have nothing : x.down = [] := by rw [h.down, next, List.flatMap_nil]
    simp only [step?, nothing] at step
    cases step
  | cons a answers =>
    obtain ⟨c, o⟩ := a
    simp only [step?, h.read_down room next] at step
    cases step
    obtain ⟨travels, k, found, outcome⟩ := h.answers (c, o) (next ▸ List.mem_cons_self ..)
    have among : c ∈ l.calls := by simp [Ledger.calls, List.mem_of_getElem? found]
    have carries : frameId? (c.reply format o) = some c.send.id := frameId?_answer _ _ _
    have result : Answer.result format.codec (c.reply format o) = o.observe .null :=
      Answer.result_write travels.roundTrips _
    have received : x.session.requester.receive (c.reply format o) =
        x.session.requester.settle c.send.id (o.observe .null) :=
      receive_write h.asking.settings.1 travels.roundTrips _
    have step : x.session.step? (.receive (c.reply format o)) =
        some (x.session.after (x.session.requester.receive (c.reply format o))) := rfl
    have asking := h.asking.step few (fun _ _ drawn ↦ by cases drawn) step
    have ext : x.Extends { x with
        session := x.session.after (x.session.requester.receive (c.reply format o))
        down := answers.flatMap fun a ↦ Frame.write (a.1.reply format a.2) } :=
      ⟨h.asking.sound.extends few step, List.prefix_refl _, List.Subset.refl _⟩
    have genuine := genuine_of_settles h.genuine ext (h.asking.sound.settles few step) fun n r due ↦ by
      cases due with
      | answered id n parts carries' waits =>
        obtain rfl := Option.some.inj (carries.symm.trans carries')
        obtain rfl := h.asking.sound.eq_of_pending few (h.returned c among).1 waits
        rw [h.asking.settings.1, result]
        exact (Genuine.answered k o (h.serves found) outcome).mono ext
    rw [received] at asking genuine ⊢
    refine ⟨{ l with answers }, { h with
      asking, genuine
      down := rfl
      answers := fun a later ↦ h.answers a (next ▸ List.mem_cons_of_mem _ later)
      located := fun id n waits ↦ ?_ }⟩
    obtain ⟨before, other⟩ := (mem_pending_settle_iff c.send.id (o.observe .null)).mp waits
    refine (h.located id n before).imp_right fun holds ↦ ?_
    cases holds with
    | queued c' queued => exact .queued c' queued
    | flying c' flying => exact .flying c' flying
    | message k c' found still => exact .message k c' found still
    -- The promise that got this answer does not wait any more, so no other place is due to it.
    | answered a answered =>
      rcases List.mem_cons.mp (next ▸ answered) with rfl | later
      · exact absurd (h.id_eq among before) other
      · exact .answered a later

/-- Whatever happens is kept. -/
theorem step (h : Kept format limit l x) (room : limit < 2 ^ 32) (few : x.session.sends.length < 2 ^ 64)
    {e : Event} (travels : e.Travels format limit) {x' : Exchange} (step : x.step? e = some x') :
    ∃ l', Kept format limit l' x' := by
  cases e with
  | client e =>
    simp only [step?] at step
    split at step
    · rename_i isLocal
      obtain ⟨s', happens, rfl⟩ := Option.map_eq_some_iff.mp step
      exact h.client few isLocal travels happens
    · cases step
  | write =>
    cases step
    exact h.write few
  | serve => exact h.serve room step
  | settle k o => exact h.settle travels step
  | deliver => exact h.deliver room few step

end Kept

/-! ## Whole exchanges -/

section Runs

variable {format : Format} {limit : Nat} {l : Ledger} {x x' : Exchange}

/-- No send is forgotten. -/
theorem length_le_of_step {e : Event} (step : x.step? e = some x') :
    x.session.sends.length ≤ x'.session.sends.length := by
  cases e with
  | client e =>
    simp only [step?] at step
    split at step
    · obtain ⟨s', happens, rfl⟩ := Option.map_eq_some_iff.mp step
      exact Session.length_le_of_step happens
    · cases step
  | write =>
    cases step
    exact le_refl _
  | serve | settle k o | deliver =>
    simp only [step?] at step
    split at step
    · cases step
      exact le_refl _
    · cases step

theorem length_le_of_run {events : List Event} (run : x.run? events = some x') :
    x.session.sends.length ≤ x'.session.sends.length := by
  induction events generalizing x with
  | nil =>
    cases run
    exact le_refl _
  | cons e rest ih =>
    obtain ⟨next, step, run⟩ := Option.bind_eq_some_iff.mp run
    exact (length_le_of_step step).trans (ih run)

/-- Whatever happens one after the other is kept. -/
theorem kept_of_run (room : limit < 2 ^ 32) {events : List Event} (run : x.run? events = some x')
    (few : x'.session.sends.length < 2 ^ 64) (travels : ∀ e ∈ events, e.Travels format limit)
    (start : Kept format limit l x) : ∃ l', Kept format limit l' x' := by
  induction events generalizing x l with
  | nil =>
    cases run
    exact ⟨l, start⟩
  | cons e rest ih =>
    obtain ⟨next, step, later⟩ := Option.bind_eq_some_iff.mp run
    obtain ⟨travelled, remain⟩ := List.forall_mem_cons.mp travels
    -- No send is forgotten, so what is few at the end was few before.
    have before := (length_le_of_step step).trans_lt ((length_le_of_run later).trans_lt few)
    -- The ledger is another one after each event.
    obtain ⟨l', kept⟩ := start.step room before travelled step
    exact ih later remain kept

end Runs

namespace Kept

variable {format : Format} {limit : Nat} {l : Ledger} {x : Exchange}

/-- The request of a send is a message of its own. -/
theorem number_of_serves (h : Kept format limit l x) (few : x.session.sends.length < 2 ^ 64) {n k : Nat}
    (serves : x.Serves n k) : ∃ c, l.messages[k]? = some c ∧ c.number = n := by
  obtain ⟨send, format', found, -, message⟩ := serves
  rw [h.serving.served, List.getElem?_map] at message
  obtain ⟨c, there, same⟩ := Option.map_eq_some_iff.mp message
  have among : c ∈ l.calls := by simp [Ledger.calls, List.mem_of_getElem? there]
  have carried := congrArg frameId? (congrArg (fun m : Bytes × Request ↦ [m.1]) same)
  simp only [frameId?_cons, Option.some.injEq] at carried
  have sent := (h.returned c among).1
  rw [h.asking.sound.ids sent, h.asking.sound.ids found] at carried
  exact ⟨c, there, Session.ofNat_inj ((List.getElem?_eq_some_iff.mp sent).1.trans few)
    ((List.getElem?_eq_some_iff.mp found).1.trans few) carried⟩

/-- Nobody waits when nothing is under way. -/
theorem pending_of_quiet (h : Kept format limit l x) (quiet : x.Quiet) : x.session.requester.pending = [] := by
  refine List.eq_nil_iff_forall_not_mem.mpr fun ⟨id, n⟩ waits ↦ ?_
  rcases h.located id n waits with ⟨send, found, entered⟩ | holds
  · rw [quiet.returned send (List.mem_of_getElem? found)] at entered
    cases entered
  · cases holds with
    | queued c queued =>
      have left := List.mem_map_of_mem (f := Call.parts format) queued
      rw [← h.outgoing, quiet.outgoing] at left
      exact absurd left List.not_mem_nil
    | flying c flying =>
      have nothing := h.up.symm.trans quiet.up
      exact Frame.write_ne_nil _ (List.flatMap_eq_nil_iff.mp nothing c flying)
    | message k c found still =>
      refine still (quiet.outcomes k ?_)
      rw [h.serving.length]
      exact (List.getElem?_eq_some_iff.mp found).1
    | answered a answered =>
      have nothing := h.down.symm.trans quiet.down
      exact Frame.write_ne_nil _ (List.flatMap_eq_nil_iff.mp nothing a answered)

end Kept

/-- What holds of an exchange at any time. -/
structure Faithful (x : Exchange) : Prop where
  /-- each message is the request of a send -/
  asked : ∀ k < x.served.length, ∃ n, x.Serves n k
  /-- a request becomes one message at most, and a message is one request -/
  once : ∀ n k n' k', x.Serves n k → x.Serves n' k' → (n = n' ↔ k = k')
  /-- a message has one outcome at most -/
  outcomes : (x.outcomes.map Prod.fst).Nodup
  /-- what a promise gets is its own -/
  genuine : ∀ n r, (n, r) ∈ x.session.settled → x.Genuine n r
  /-- the end that answers can take what is on its way up -/
  up : x.up ≠ [] → (x.step? .serve).isSome
  /-- the end that asks can take what is on its way down -/
  down : x.down ≠ [] → (x.step? .deliver).isSome
  /-- when nothing is under way, each promise got the outcome of its own message -/
  quiet : x.Quiet → ∀ n send, x.session.sends[n]? = some send →
    Frame.size (x.session.parts send) ≤ x.session.requester.limit →
      ∃ k o, x.Serves n k ∧ (k, o) ∈ x.outcomes ∧ x.session.results n = [o.observe .null]

theorem Kept.faithful {format : Format} {limit : Nat} {l : Ledger} {x : Exchange}
    (h : Kept format limit l x) (room : limit < 2 ^ 32) (few : x.session.sends.length < 2 ^ 64) :
    x.Faithful where
  asked k bound := by
    rw [h.serving.length] at bound
    exact ⟨_, h.serves (List.getElem?_eq_getElem bound)⟩
  once n k n' k' serves serves' := by
    obtain ⟨c, found, rfl⟩ := h.number_of_serves few serves
    obtain ⟨c', found', rfl⟩ := h.number_of_serves few serves'
    have distinct : (l.messages.map Call.number).Nodup :=
      h.once.sublist (((List.sublist_append_left _ _).trans (List.sublist_append_left _ _)).map _)
    constructor
    · intro same
      refine (List.getElem?_inj ?_ distinct).mp ?_
      · rw [List.length_map]
        exact (List.getElem?_eq_some_iff.mp found).1
      · rw [List.getElem?_map, List.getElem?_map, found, found', Option.map_some, Option.map_some, same]
    · rintro rfl
      rw [Option.some.inj (found.symm.trans found')]
  outcomes := h.serving.once
  genuine := h.genuine
  up some := by
    cases flying : l.flight with
    | nil => exact absurd (by rw [h.up, flying, List.flatMap_nil]) some
    | cons c flight => rw [h.step?_serve room flying, Option.isSome_some]
  down some := by
    cases next : l.answers with
    | nil => exact absurd (by rw [h.down, next, List.flatMap_nil]) some
    | cons a answers =>
      simp only [step?, h.read_down room next, Option.isSome_some]
  quiet quiet n send found fits := by
    have ended := quiet.returned send (List.mem_of_getElem? found)
    rcases h.asking.sound.waits_or_settled found (by rw [ended]; decide) with ⟨-, waits⟩ | ⟨r, result, -⟩
    · rw [h.pending_of_quiet quiet] at waits
      exact absurd waits List.not_mem_nil
    · have settled : (n, r) ∈ x.session.settled := by
        have got : r ∈ x.session.results n := result ▸ List.mem_singleton_self r
        simpa [Session.results] using got
      cases h.genuine n r settled with
      | lost gone => exact absurd gone (by rw [quiet.going]; decide)
      | oversized send' found' large =>
        obtain rfl := Option.some.inj (found.symm.trans found')
        exact absurd large (Nat.not_lt_of_le fits)
      | answered k o serves outcome => exact ⟨k, o, serves, outcome, result⟩

/-- Whatever happens in whatever order: each message is what one send asked for, and what a promise gets is
the outcome of its own message, unless its request is too large or the connection is lost.  Frames under way
can be taken, and when nothing is under way every promise has its result. -/
theorem faithful_of_run {format : Format} {limit : Nat} (room : limit < 2 ^ 32) {events : List Event}
    {x : Exchange} (run : (start format limit).run? events = some x)
    (few : x.session.sends.length < 2 ^ 64) (travels : ∀ e ∈ events, e.Travels format limit) : x.Faithful := by
  obtain ⟨l, kept⟩ := kept_of_run room run few travels (kept_start format limit)
  exact kept.faithful room few

end Exchange

end Troupe.Net
