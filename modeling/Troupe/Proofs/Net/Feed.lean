import Mathlib
import Troupe.Net.Publisher
import Troupe.Net.Subscriber
import Troupe.Proofs.Dispatch.Traffic
import Troupe.Proofs.Net.Intake

/-!
# Feeds are delivered in order

A subscriber's feed is shared by the task that reads it and by the workers that deliver what it holds.  The
task takes a frame, a worker starts a delivery that may run, a delivery that runs ends, and each of these
happens whenever it can, whatever the number of workers.

* What a frame holds is `publication?`; a frame of a publisher holds what was published
  (`publication?_frame`).
* Deliveries are jobs of a dispatch queue that all write, so what is known of its traffic says that they
  run one at a time and in the order of their frames (`Sound`).
* Every event takes a frame, sees the end or is seen of a delivery, so there are no more of them than that
  (`Sound.seen_le`).  As long as something is left, some event is possible (`Sound.progress`).

The main statement is `delivered_in_order`.
-/

namespace Troupe

theorem Format.require_eq_ok_iff {name : String} {f : Format} :
    Format.require name = .ok f ↔ name = f.name := by
  constructor
  · intro required
    rw [require] at required
    split at required
    · next found =>
      cases required
      have same : f.name = name := by simpa using List.find?_some found
      exact same.symm
    · cases required
  · rintro rfl
    simp [require]

namespace Net

section Feeds

variable [Wording]

/-! ## What frames hold -/

/-- The publication that a frame holds, if it holds one. -/
def publication? (parts : Parts) : Option Publication := (Publication.parse parts).toOption

/-- A frame holds a publication if it has three parts: the topic, the name of a format, and a document of the
format with the value. -/
theorem publication?_eq_some_iff {parts : Parts} {p : Publication} :
    publication? parts = some p ↔ ∃ topic name payload, ∃ f : Format, parts = [topic, name, payload] ∧
      Text.decode? topic = some p.topic ∧ Text.decode? name = some f.name ∧
      f.decode payload = .ok p.value := by
  constructor
  · intro holds
    rw [publication?, Publication.parse.eq_def] at holds
    split at holds
    · next topic name payload =>
      split at holds
      · cases holds
      · cases holds
      · next topic' name' named formatted =>
        cases required : Format.require name' with
        | error e => simp [required, Except.bind, Except.toOption] at holds
        | ok f =>
          cases decoded : f.decode payload with
          | error e => simp [required, decoded, Except.bind, Except.toOption] at holds
          | ok value =>
            simp only [required, decoded, Except.bind, Except.toOption, Option.some.injEq] at holds
            subst holds
            exact ⟨topic, name, payload, f, rfl, named,
              Format.require_eq_ok_iff.mp required ▸ formatted, decoded⟩
    · cases holds
  · rintro ⟨topic, name, payload, f, rfl, named, formatted, decoded⟩
    simp [publication?, Publication.parse, named, formatted, Format.require_eq_ok_iff.mpr rfl, decoded,
      Except.bind, Except.toOption]

/-- A frame of a publisher is read with the topic that was published and with what the format reads of what
it wrote of the value. -/
theorem publication?_frame {p : Publisher} {format : Format} (encoding : p.codec = format.codec) {limit : Nat}
    (fits : limit < 2 ^ 32) {topic : String} {value : Data} {bytes : Bytes}
    (framed : Publisher.frame p.codec p.limit topic value = .ok bytes) (within : bytes.length ≤ limit) :
    ∃ parts, (∀ rest, Frame.read limit (bytes ++ rest) = .frame parts rest) ∧
      publication? parts =
        (format.decode (format.encode value)).toOption.map fun value ↦ ⟨topic, value⟩ := by
  rw [Publisher.frame, encoding] at framed
  obtain ⟨-, rfl⟩ := Frame.encode_eq_ok_iff.mp framed
  rw [Frame.length_write] at within
  refine ⟨_, fun rest ↦ Frame.read_write fits within rest, ?_⟩
  cases decoded : format.decode (format.encode value) <;>
    simp [publication?, Publication.parse, Format.require_eq_ok_iff.mpr rfl, decoded, Except.bind,
      Except.toOption]

/-! ## Feeds -/

/-- What was seen of a delivery. -/
inductive Feed.Call where
  /-- it was started -/
  | began (p : Publication)
  /-- it ended -/
  | ended (p : Publication) (ending : Dispatch.Ending)

/-- A subscriber with those who deliver what it hears. -/
structure Feed where
  /-- the subscriber -/
  subscriber : Subscriber
  /-- the frames taken, the oldest first -/
  taken : List Parts
  /-- the deliveries that run -/
  running : List Publication
  /-- what was seen of the deliveries, the oldest first -/
  calls : List Feed.Call

namespace Feed

/-- What one of the parties does at an instant. -/
inductive Event where
  /-- the next frame is taken, or the end of the feed is seen -/
  | listen
  /-- a worker starts a delivery -/
  | start
  /-- a delivery that runs ends, with or without a panic -/
  | finish (place : Nat) (ending : Dispatch.Ending)

/-- A feed of which nothing was read yet. -/
def start (limit : Nat) (stream : Bytes) : Feed := ⟨.start limit stream, [], [], []⟩

/-- The frame that comes next, if one does. -/
def next? (x : Feed) : Option Parts :=
  match x.subscriber.reader.next.1 with
  | .frame parts _ => some parts
  | _ => none

/-- What comes of one event, if it can happen with a number of workers. -/
def step? (workers : Nat) (x : Feed) : Event → Option Feed
  | .listen =>
    if x.subscriber.finished.isSome then none
    else some { x with subscriber := x.subscriber.listen, taken := x.taken ++ x.next?.toList }
  | .start =>
    if x.running.length < workers then
      x.subscriber.start?.map fun (p, subscriber) ↦
        { x with subscriber, running := x.running ++ [p], calls := x.calls ++ [.began p] }
    else none
  | .finish place ending =>
    x.running[place]?.map fun p ↦
      { x with
        subscriber := x.subscriber.complete
        running := x.running.eraseIdx place
        calls := x.calls ++ [.ended p ending] }

/-- What comes of events one after the other. -/
def run? (workers : Nat) (x : Feed) : List Event → Option Feed
  | [] => some x
  | e :: rest => (x.step? workers e).bind fun x ↦ x.run? workers rest

/-! ## What holds between any two events -/

/-- The job that delivers a publication. -/
def job (p : Publication) : Job Publication := ⟨.writer, p⟩

/-- Deliveries that ended were started and ended one after the other. -/
def turns (ended : List (Publication × Dispatch.Ending)) : List Call :=
  ended.flatMap fun c ↦ [.began c.1, .ended c.1 c.2]

/-- The deliveries are the traffic of the subscriber's dispatch queue. -/
structure Sound (frames left : List Parts) (ended : List (Publication × Dispatch.Ending))
    (t : Dispatch.Traffic Publication) (x : Feed) : Prop where
  /-- the traffic is sound -/
  traffic : t.Sound
  /-- it is that of the subscriber -/
  dispatch : x.subscriber.deliveries = t.dispatch
  /-- the frames are those taken and those left -/
  frames : frames = x.taken ++ left
  /-- those left are still to be read, if the feed has not finished -/
  left : if x.subscriber.finished.isSome then left = [] else x.subscriber.reader.Yields left
  /-- the publications taken were submitted -/
  submitted : t.submitted = (x.taken.filterMap publication?).map job
  /-- those that run or may run are not finished -/
  unfinished : t.unfinished = x.running.map job ++ x.subscriber.ready
  /-- those that ended come before them -/
  admitted : t.admitted = ended.map (fun c ↦ job c.1) ++ t.unfinished
  /-- deliveries were started and ended one after the other -/
  calls : x.calls = turns ended ++ x.running.map .began

theorem sound_start {limit : Nat} {stream : Bytes} {frames : List Parts}
    (yields : (⟨limit, stream, 0⟩ : Reader).Yields frames) :
    Sound frames frames [] .empty (start limit stream) where
  traffic := Dispatch.Traffic.sound_empty
  dispatch := rfl
  frames := rfl
  left := yields
  submitted := rfl
  unfinished := rfl
  admitted := rfl
  calls := rfl

section Events

variable {workers : Nat} {frames left : List Parts} {ended : List (Publication × Dispatch.Ending)}
  {t : Dispatch.Traffic Publication} {x x' : Feed}

/-- All jobs write. -/
theorem Sound.writes (h : Sound frames left ended t x) {j : Job Publication} (among : j ∈ t.unfinished) :
    j.access = .writer := by
  have submitted : j ∈ t.submitted := by
    rw [h.traffic.order, h.admitted]
    exact List.mem_append_left _ (List.mem_append_right _ among)
  rw [h.submitted] at submitted
  obtain ⟨p, -, rfl⟩ := List.mem_map.mp submitted
  rfl

/-- So one delivery at most runs or may run. -/
theorem Sound.alone (h : Sound frames left ended t x) : t.unfinished.length ≤ 1 := by
  cases unfinished : t.unfinished with
  | nil => exact Nat.zero_le 1
  | cons j rest =>
    have among : j ∈ t.unfinished := unfinished ▸ List.mem_cons_self
    rw [← unfinished, h.traffic.toBalanced.eq_singleton among (h.writes among)]
    exact Nat.le_refl 1

/-- A frame with a publication is taken. -/
theorem Sound.submit (h : Sound frames left ended t x) {p : Publication} {parts : Parts}
    (holds : publication? parts = some p) {reader : Reader} {left' : List Parts}
    (rest : left = parts :: left') (going : x.subscriber.finished.isSome = false) (more : reader.Yields left') :
    Sound frames left' ended (t.submit (job p))
      { x with subscriber := { x.subscriber with reader }.deliver p, taken := x.taken ++ [parts] } where
  traffic := h.traffic.submit (job p)
  dispatch := by
    rw [Dispatch.Traffic.submit, Dispatch.Traffic.leave, ← h.dispatch]
    rfl
  frames := by rw [h.frames, rest, List.append_cons]
  left := by
    rw [Subscriber.deliver]
    dsimp only
    rw [going]
    exact more
  submitted := by
    rw [List.filterMap_append, List.filterMap_cons_some holds, List.map_append, ← h.submitted]
    rfl
  unfinished := by
    rw [Dispatch.Traffic.submit, Dispatch.Traffic.leave, Dispatch.Traffic.enqueue, Subscriber.deliver]
    dsimp only
    rw [h.unfinished, h.dispatch, List.append_assoc]
    rfl
  admitted := by
    rw [Dispatch.Traffic.submit, Dispatch.Traffic.leave, Dispatch.Traffic.enqueue]
    dsimp only
    rw [h.admitted, List.append_assoc]
  calls := h.calls

/-- A frame without a publication is passed over. -/
theorem Sound.skip (h : Sound frames left ended t x) {parts : Parts} (holds : publication? parts = none)
    {reader : Reader} {left' : List Parts} (rest : left = parts :: left')
    (going : x.subscriber.finished.isSome = false) (more : reader.Yields left') :
    Sound frames left' ended t
      { x with subscriber := { x.subscriber with reader }, taken := x.taken ++ [parts] } :=
  { h with
    frames := by rw [h.frames, rest, List.append_cons]
    left := by
      dsimp only
      rw [going]
      exact more
    submitted := by
      rw [List.filterMap_append, List.filterMap_cons_none holds, h.submitted]
      simp }

/-- The task that reads takes the next frame, or sees that there is none. -/
theorem Sound.listen (h : Sound frames left ended t x) (step : x.step? workers .listen = some x') :
    x.subscriber.finished.isSome = false ∧
      ((∃ parts left', left = parts :: left' ∧ x'.subscriber.finished.isSome = false ∧
        ∃ t', Sound frames left' ended t' x') ∨
      left = [] ∧ x'.subscriber.finished.isSome = true ∧ Sound frames left ended t x') := by
  rw [step?] at step
  split at step
  · cases step
  · next going =>
    have going : x.subscriber.finished.isSome = false := by simpa using going
    have left := h.left
    rw [going] at left
    refine ⟨going, ?_⟩
    cases step
    cases left with
    | frame first more =>
      rename_i reader parts rest left'
      have next : x.next? = some parts := by rw [next?, first]
      refine .inl ⟨parts, left', rfl, ?_⟩
      rw [next, Subscriber.listen, first]
      dsimp only
      cases parsed : Publication.parse parts with
      | error e => exact ⟨going, t, h.skip (by rw [publication?, parsed]; rfl) rfl going more⟩
      | ok p => exact ⟨going, _, h.submit (by rw [publication?, parsed]; rfl) rfl going more⟩
    | finish none =>
      refine .inr ⟨rfl, ?_⟩
      cases read : x.subscriber.reader.next with
      | mk reading reader =>
        cases reading with
        | frame parts rest => exact absurd (congrArg Prod.fst read) (none parts rest)
        | ended | failed e rest =>
          have next : x.next? = .none := by rw [next?, read]
          rw [next, Subscriber.listen, read]
          refine ⟨rfl, { h with
            frames := ?_
            left := by simp
            submitted := ?_ }⟩
          · rw [h.frames]
            simp
          · rw [h.submitted]
            simp

/-- A worker starts the delivery that may run. -/
theorem Sound.begin (h : Sound frames left ended t x) (step : x.step? workers .start = some x') :
    ∃ p, x.subscriber.ready = [job p] ∧ x.running = [] ∧ x'.subscriber.ready = [] ∧ x'.running = [p] ∧
      x'.subscriber.deliveries = x.subscriber.deliveries ∧
      x'.subscriber.finished = x.subscriber.finished ∧ Sound frames left ended t x' := by
  rw [step?] at step
  split at step
  · obtain ⟨⟨p, subscriber⟩, started, rfl⟩ := Option.map_eq_some_iff.mp step
    rw [Subscriber.start?] at started
    split at started
    · cases started
    · next j rest ready =>
      cases started
      have among : j ∈ t.unfinished := by
        rw [h.unfinished, ready]
        exact List.mem_append_right _ List.mem_cons_self
      have one := h.alone
      rw [h.unfinished, ready, List.length_append, List.length_map, List.length_cons] at one
      have idle : x.running = [] := List.eq_nil_of_length_eq_zero (by omega)
      obtain rfl : rest = [] := List.eq_nil_of_length_eq_zero (by omega)
      have this : j = job j.work := Job.ext (h.writes among) rfl
      refine ⟨j.work, by rw [ready, ← this], idle, rfl, by simp [idle], rfl, rfl, { h with
        unfinished := ?_
        calls := ?_ }⟩
      · rw [h.unfinished, ready, idle]
        simp [← this]
      · rw [h.calls, idle]
        simp
  · cases step

/-- The delivery that runs ends, and the next one may run. -/
theorem Sound.finish (h : Sound frames left ended t x) {place : Nat} {ending : Dispatch.Ending}
    (step : x.step? workers (.finish place ending) = some x') :
    ∃ p t', x.running = [p] ∧ x'.running = [] ∧ x'.subscriber.finished = x.subscriber.finished ∧
      Sound frames left (ended ++ [(p, ending)]) t' x' := by
  obtain ⟨p, found, rfl⟩ := Option.map_eq_some_iff.mp step
  have one := h.alone
  obtain ⟨within, here⟩ := List.getElem?_eq_some_iff.mp found
  rw [h.unfinished, List.length_append, List.length_map] at one
  have idle : x.subscriber.ready = [] := List.eq_nil_of_length_eq_zero (by omega)
  obtain ⟨q, only⟩ := List.length_eq_one_iff.mp (show x.running.length = 1 by omega)
  obtain rfl : place = 0 := by omega
  obtain rfl : q = p := by simpa [only] using here
  have unfinished : t.unfinished = [job q] := by rw [h.unfinished, only, idle]; rfl
  have among : t.unfinished[0]? = some (job q) := by rw [unfinished]; rfl
  refine ⟨q, t.finish 0 (job q), only, by rw [only]; rfl, rfl, ?_⟩
  exact {
    traffic := h.traffic.finish among
    dispatch := by
      rw [Dispatch.Traffic.finish, Dispatch.Traffic.leave, ← h.dispatch]
      rfl
    frames := h.frames
    left := h.left
    submitted := h.submitted
    unfinished := by
      rw [Dispatch.Traffic.finish, Dispatch.Traffic.leave, Dispatch.Traffic.release, Subscriber.complete]
      dsimp only
      rw [unfinished, only, idle, h.dispatch]
      rfl
    admitted := by
      rw [Dispatch.Traffic.finish, Dispatch.Traffic.leave, Dispatch.Traffic.release]
      dsimp only
      rw [h.admitted, unfinished]
      simp
    calls := by
      dsimp only
      rw [h.calls, only, turns, turns]
      simp }

/-- Whatever happens, deliveries are the traffic of the dispatch queue. -/
theorem Sound.step (h : Sound frames left ended t x) {e : Event} (step : x.step? workers e = some x') :
    ∃ left' ended' t', Sound frames left' ended' t' x' := by
  cases e with
  | listen =>
    obtain ⟨-, ⟨parts, left', -, -, t', next⟩ | ⟨-, -, next⟩⟩ := h.listen step
    · exact ⟨left', ended, t', next⟩
    · exact ⟨left, ended, t, next⟩
  | start =>
    obtain ⟨p, -, -, -, -, -, -, next⟩ := h.begin step
    exact ⟨left, ended, t, next⟩
  | finish place ending =>
    obtain ⟨p, t', -, -, -, next⟩ := h.finish step
    exact ⟨left, _, t', next⟩

/-- Whatever happens, deliveries are the traffic of the dispatch queue. -/
theorem Sound.run (h : Sound frames left ended t x) {events : List Event}
    (run : x.run? workers events = some x') : ∃ left' ended' t', Sound frames left' ended' t' x' := by
  induction events generalizing left ended t x with
  | nil =>
    cases run
    exact ⟨left, ended, t, h⟩
  | cons e rest ih =>
    obtain ⟨y, step, run⟩ := Option.bind_eq_some_iff.mp run
    obtain ⟨left', ended', t', next⟩ := h.step step
    exact ih next run

/-- The deliveries that were started are the first of those that are due. -/
theorem Sound.begun (h : Sound frames left ended t x) :
    ended.map Prod.fst ++ x.running <+: frames.filterMap publication? := by
  have works (ps : List Publication) : (ps.map job).map Job.work = ps := by
    rw [List.map_map]
    exact List.map_id ps
  have order : x.taken.filterMap publication? =
      ended.map Prod.fst ++ x.running ++ (x.subscriber.ready ++ t.dispatch.queue).map Job.work := by
    have order := congrArg (List.map Job.work) h.traffic.order
    rw [h.submitted, works, h.admitted, h.unfinished] at order
    simpa [works, Function.comp_def, job] using order
  rw [h.frames, List.filterMap_append, order, List.append_assoc]
  exact List.prefix_append _ _

/-- If nothing more can happen, all was delivered. -/
theorem Sound.progress (h : Sound frames left ended t x) (staffed : 0 < workers)
    (stuck : ∀ e, x.step? workers e = none) :
    x.running = [] ∧ ended.map Prod.fst = frames.filterMap publication? := by
  have idle : x.running = [] := by
    cases running : x.running with
    | nil => rfl
    | cons p rest =>
      have ends := stuck (.finish 0 .returned)
      rw [step?, running] at ends
      cases ends
  have ready : x.subscriber.ready = [] := by
    cases ready : x.subscriber.ready with
    | nil => rfl
    | cons j rest =>
      have starts := stuck .start
      rw [step?, idle, List.length_nil, if_pos staffed, Subscriber.start?, ready] at starts
      cases starts
  have finished : x.subscriber.finished.isSome = true := by
    by_contra going
    have listens := stuck .listen
    rw [step?, if_neg going] at listens
    cases listens
  obtain rfl : left = [] := by simpa [finished] using h.left
  have unfinished : t.unfinished = [] := by rw [h.unfinished, idle, ready]; rfl
  have queue : t.dispatch.queue = [] := h.traffic.queue_eq_nil unfinished
  refine ⟨idle, ?_⟩
  have order := h.traffic.order
  rw [h.submitted, h.admitted, unfinished, queue] at order
  have order := congrArg (List.map Job.work) order
  rw [h.frames, List.append_nil]
  simpa [Function.comp_def, job] using order.symm

/-- What was seen of a feed: the frames taken, the end, and what deliveries did. -/
def seen (x : Feed) : Nat := x.taken.length + x.subscriber.finished.isSome.toNat + x.calls.length

/-- No more is seen than there is to be seen. -/
theorem Sound.seen_le (h : Sound frames left ended t x) :
    x.seen ≤ frames.length + 1 + 2 * (frames.filterMap publication?).length := by
  have taken := congrArg List.length h.frames
  have begun := h.begun.length_le
  have calls (c : List (Publication × Dispatch.Ending)) : (turns c).length = 2 * c.length := by
    simp [turns, List.length_flatMap, Nat.mul_comm]
  have last : x.subscriber.finished.isSome.toNat ≤ 1 := Bool.toNat_le _
  rw [List.length_append] at taken
  rw [List.length_append, List.length_map] at begun
  rw [seen, h.calls, List.length_append, List.length_map, calls]
  omega

/-- Something is seen at every event. -/
theorem seen_of_step {e : Event} (step : x.step? workers e = some x') : x'.seen = x.seen + 1 := by
  cases e with
  | listen =>
    rw [step?] at step
    split at step
    · cases step
    · next going =>
      have going : x.subscriber.finished.isSome = false := by simpa using going
      cases step
      rw [seen, seen, next?, Subscriber.listen, going]
      rcases x.subscriber.reader.next with ⟨parts | _ | _, reader⟩
      · dsimp only
        cases Publication.parse parts <;> simp [Subscriber.deliver, going] <;> omega
      · simp
        omega
      · simp
        omega
  | start =>
    rw [step?] at step
    split at step
    · obtain ⟨⟨p, subscriber⟩, started, rfl⟩ := Option.map_eq_some_iff.mp step
      rw [Subscriber.start?] at started
      split at started
      · cases started
      · cases started
        simp [seen]
        omega
    · cases step
  | finish place ending =>
    obtain ⟨p, found, rfl⟩ := Option.map_eq_some_iff.mp step
    simp [seen, Subscriber.complete]
    omega

theorem seen_of_run {events : List Event} (run : x.run? workers events = some x') :
    x'.seen = x.seen + events.length := by
  induction events generalizing x with
  | nil =>
    cases run
    rfl
  | cons e rest ih =>
    obtain ⟨y, step, run⟩ := Option.bind_eq_some_iff.mp run
    rw [ih run, seen_of_step step, List.length_cons]
    omega

end Events

/-! ## Deliveries -/

/-- Whatever the bytes of a feed, the number of workers and the order of events, deliveries are started in the
order of their frames and one after the other, one for each frame that holds a publication and none for any
other, and whether they panic or not makes no difference.  No run of the feed goes on forever, and where one
cannot go on, all was delivered.  Of a frame that a publisher wrote, what is delivered is the topic and what
the format reads of the value that it wrote. -/
theorem delivered_in_order {workers limit : Nat} {stream : Bytes} {frames : List Parts} {events : List Event}
    {x : Feed} (staffed : 0 < workers) (yields : (⟨limit, stream, 0⟩ : Reader).Yields frames)
    (run : (start limit stream).run? workers events = some x) :
    (∃ ended : List (Publication × Dispatch.Ending),
      x.calls = turns ended ++ x.running.map .began ∧ x.running.length ≤ 1 ∧
      ended.map Prod.fst ++ x.running <+: frames.filterMap publication? ∧
      events.length ≤ frames.length + 1 + 2 * (frames.filterMap publication?).length ∧
      ((∀ e, x.step? workers e = none) →
        x.running = [] ∧ ended.map Prod.fst = frames.filterMap publication?)) ∧
    (∀ parts p, publication? parts = some p ↔ ∃ topic name payload, ∃ f : Format,
      parts = [topic, name, payload] ∧ Text.decode? topic = some p.topic ∧
      Text.decode? name = some f.name ∧ f.decode payload = .ok p.value) ∧
    ∀ (p : Publisher) (format : Format) (topic : String) (value : Data) (bytes : Bytes),
      p.codec = format.codec → limit < 2 ^ 32 →
      Publisher.frame p.codec p.limit topic value = .ok bytes → bytes.length ≤ limit →
      ∃ parts, (∀ rest, Frame.read limit (bytes ++ rest) = .frame parts rest) ∧
        publication? parts =
          (format.decode (format.encode value)).toOption.map fun value ↦ ⟨topic, value⟩ := by
  obtain ⟨left, ended, t, sound⟩ := (sound_start yields).run run
  refine ⟨⟨ended, sound.calls, ?_, sound.begun, ?_, sound.progress staffed⟩,
    fun parts p ↦ publication?_eq_some_iff,
    fun p format topic value bytes encoding fits framed within ↦ publication?_frame encoding fits framed within⟩
  · have alone := sound.alone
    rw [sound.unfinished, List.length_append, List.length_map] at alone
    omega
  · have seen : x.seen = 0 + events.length := seen_of_run run
    have bound := sound.seen_le
    omega

/-- Two frames that hold publications, one that lacks a part, and one of an unknown format. -/
def mixed : List Parts :=
  [[Text.encode "prices.eur", Text.encode "json", Text.encode "1"],
    [Text.encode "prices.eur", Text.encode "json"],
    [Text.encode "prices.usd", Text.encode "text", Text.encode "2"],
    [Text.encode "alerts", Text.encode "json", Text.encode "3"]]

end Feed

end Feeds

attribute [local instance] Wording.brief

/-- The first delivery panics. -/
theorem Feed.delivered_in_order_past_panic :
    ∃ x ended, (start 64 (mixed.flatMap Frame.write)).run? 2 [.listen, .listen, .start, .listen, .listen,
        .finish 0 (.panicked "no room"), .start, .listen, .finish 0 .returned] = some x ∧
      x.calls = turns ended ∧ ended.map Prod.fst = mixed.filterMap publication? ∧
      mixed.filterMap publication? = [⟨"prices.eur", .int 1⟩, ⟨"alerts", .int 3⟩] := by
  have yields : (⟨64, mixed.flatMap Frame.write, 0⟩ : Reader).Yields mixed := by
    have within : ∀ f ∈ mixed, Frame.size f ≤ 64 := by decide +kernel
    simpa using Reader.yields_write (by decide) within (Frame.read_nil_ne 64) 0
  have runs : ((start 64 (mixed.flatMap Frame.write)).run? 2 [.listen, .listen, .start, .listen, .listen,
      .finish 0 (.panicked "no room"), .start, .listen, .finish 0 .returned]).map (fun x ↦
        (x.running, x.subscriber.ready, x.subscriber.finished.isSome)) = some ([], [], true) := by
    cbv
  obtain ⟨x, run, same⟩ := Option.map_eq_some_iff.mp runs
  simp only [Prod.mk.injEq] at same
  obtain ⟨idle, ready, finished⟩ := same
  obtain ⟨⟨ended, calls, -, -, -, all⟩, -, -⟩ := delivered_in_order (by decide) yields run
  have stuck (e : Event) : x.step? 2 e = none := by
    cases e <;> simp [step?, idle, finished, Subscriber.start?, ready]
  exact ⟨x, ended, run, by simpa [idle] using calls, (all stuck).2, by cbv⟩

end Net

end Troupe
