import Mathlib
import Troupe.Proofs.Net.Exchange
import Troupe.Proofs.Net.Feed

/-!
# Every request is answered once

A connection is served by several parties.  One task takes the frames, the mailbox comes to the outcomes of
its messages on threads of its own and in any order, and another task writes the answers, which it gets from
all others through a channel.

* What a frame asks for is `request?`, and what the frames are answered is `answersTo`, in the order of the
  frames.
* The answers that were sent are those to the frames that were taken, in some order (`Sound`).
* A replier that writes at once is a connection whose channel is empty after each event (`flushed_take`,
  `flushed_settle`, `flushed_write`).

The main statement is `answered_once`.
-/

namespace Troupe.Net

section Serving

variable [Wording]

/-! ## What frames ask for -/

/-- The request that a frame holds, with the id to answer to, if it holds one. -/
def request? (parts : Parts) : Option (Bytes × Request) :=
  match Incoming.ofParts parts with
  | .request id request => some (id, request)
  | _ => none

theorem Request.parse_eq_ok_iff {id : Bytes} {rest : Parts} {r : Request} :
    parse (id :: rest) = .ok r ↔ ∃ operation name payload, rest = [operation, name, payload] ∧
      Text.decode? operation = some r.operation ∧ Text.decode? name = some r.format.name ∧
      r.format.decode payload = .ok (.list r.arguments) := by
  constructor
  · intro parsed
    rw [parse.eq_def] at parsed
    split at parsed
    · next operation name payload shape =>
      obtain ⟨rfl, rfl⟩ := List.cons.inj shape
      refine ⟨operation, name, payload, rfl, ?_⟩
      split at parsed
      · cases parsed
      · cases parsed
      · next operation' name' named formatted =>
        cases required : Format.require name' with
        | error e => simp [required, Except.bind] at parsed
        | ok f =>
          cases decoded : f.decode payload with
          | error e => simp [required, Except.bind, decoded, Except.map] at parsed
          | ok d =>
            cases d with
            | list arguments =>
              simp only [required, Except.bind, decoded, Except.map, arguments?, Except.ok.injEq] at parsed
              subst parsed
              exact ⟨named, Format.require_eq_ok_iff.mp required ▸ formatted, decoded⟩
            | null | bool | int | uint | float | string | map =>
              simp [required, Except.bind, decoded, Except.map, arguments?] at parsed
    · cases parsed
  · rintro ⟨operation, name, payload, rfl, named, formatted, decoded⟩
    simp [parse, named, formatted, Format.require_eq_ok_iff.mpr rfl, decoded, Except.bind, Except.map,
      arguments?]

/-- A frame holds a request if it has four parts: an id, the name of an operation, the name of a format, and
a document of the format with a list of arguments. -/
theorem request?_eq_some_iff {parts : Parts} {id : Bytes} {r : Request} :
    request? parts = some (id, r) ↔ ∃ operation name payload, parts = [id, operation, name, payload] ∧
      Text.decode? operation = some r.operation ∧ Text.decode? name = some r.format.name ∧
      r.format.decode payload = .ok (.list r.arguments) := by
  cases parts with
  | nil => simp [request?, Incoming.ofParts]
  | cons first rest =>
    rw [request?, Incoming.ofParts]
    constructor
    · intro holds
      cases parsed : Request.parse (first :: rest) with
      | error e =>
        rw [parsed] at holds
        cases holds
      | ok r' =>
        rw [parsed] at holds
        cases holds
        obtain ⟨operation, name, payload, rfl, fields⟩ := Request.parse_eq_ok_iff.mp parsed
        exact ⟨operation, name, payload, rfl, fields⟩
    · rintro ⟨operation, name, payload, shape, fields⟩
      obtain ⟨rfl, rfl⟩ := List.cons.inj shape
      rw [Request.parse_eq_ok_iff.mpr ⟨operation, name, payload, rfl, fields⟩]

omit [Wording] in
theorem Answer.head?_write (id : Bytes) (codec : Codec) (result : Except String Data) :
    (write id codec result).head? = some id := by
  rw [write.eq_def]
  split
  · split <;> rfl
  · rfl

omit [Wording] in
theorem Answer.length_write (id : Bytes) (codec : Codec) (result : Except String Data) :
    (write id codec result).length = 3 := by
  rw [write.eq_def]
  split
  · split <;> rfl
  · rfl

/-- What frames are answered, when the requests among them, from number `k` on, come to outcomes. -/
def answersTo (outcome? : Nat → Option (Outcome Data)) : Nat → List Parts → List Parts
  | _, [] => []
  | k, parts :: rest =>
    match Incoming.ofParts parts with
    | .ignored => answersTo outcome? k rest
    | .malformed id e => Answer.error id e.message :: answersTo outcome? k rest
    | .request id r =>
      ((outcome? k).map fun o ↦ Answer.write id r.format.codec (o.observe .null)).toList ++
        answersTo outcome? (k + 1) rest

section Answers

variable {f g : Nat → Option (Outcome Data)}

theorem answersTo_append (k : Nat) (xs ys : List Parts) :
    answersTo f k (xs ++ ys) =
      answersTo f k xs ++ answersTo f (k + (xs.filterMap request?).length) ys := by
  induction xs generalizing k with
  | nil => rfl
  | cons parts rest ih =>
    rw [List.cons_append, answersTo, answersTo, List.filterMap_cons, request?]
    cases Incoming.ofParts parts with
    | ignored => exact ih k
    | malformed id e => exact congrArg _ (ih k)
    | request id r =>
      dsimp only
      rw [ih, List.append_assoc, List.length_cons, Nat.add_right_comm, Nat.add_assoc]

theorem answersTo_congr {k : Nat} (same : ∀ i, k ≤ i → f i = g i) (frames : List Parts) :
    answersTo f k frames = answersTo g k frames := by
  induction frames generalizing k with
  | nil => rfl
  | cons parts rest ih =>
    rw [answersTo, answersTo, ih same, same k (Nat.le_refl k), ih fun i later ↦ same i (by omega)]

/-- The outcome of one more request adds its answer. -/
theorem answersTo_settle {frames : List Parts} {k n : Nat} {id : Bytes} {r : Request} {o : Outcome Data}
    (asked : (frames.filterMap request?)[n]? = some (id, r)) (still : f (k + n) = none)
    (comes : g (k + n) = some o) (others : ∀ i, i ≠ k + n → g i = f i) :
    (answersTo g k frames).Perm (Answer.write id r.format.codec (o.observe .null) :: answersTo f k frames) := by
  induction frames generalizing k n with
  | nil => cases asked
  | cons parts rest ih =>
    rw [answersTo, answersTo]
    rw [List.filterMap_cons, request?] at asked
    cases holds : Incoming.ofParts parts with
    | ignored =>
      rw [holds] at asked
      exact ih asked still comes others
    | malformed id' e =>
      rw [holds] at asked
      exact ((ih asked still comes others).cons _).trans (.swap ..)
    | request id' r' =>
      rw [holds] at asked
      dsimp only at asked ⊢
      cases n with
      | zero =>
        cases asked
        have later : answersTo g (k + 1) rest = answersTo f (k + 1) rest :=
          answersTo_congr (fun i after ↦ others i (by omega)) rest
        rw [Nat.add_zero] at still comes
        rw [comes, still, later]
        rfl
      | succ n =>
        have here : g k = f k := others k (by omega)
        have place : k + (n + 1) = k + 1 + n := by omega
        rw [place] at still comes others
        rw [here]
        exact ((ih asked still comes others).append_left _).trans List.perm_middle

/-- When all requests came to outcomes, there is one answer for each frame that has parts, and it starts with
the first of them. -/
theorem head_answersTo {k : Nat} {frames : List Parts}
    (all : ∀ i, i < (frames.filterMap request?).length → (f (k + i)).isSome) :
    (answersTo f k frames).map List.head? = (frames.filter (· ≠ [])).map List.head? := by
  induction frames generalizing k with
  | nil => rfl
  | cons parts rest ih =>
    rw [List.filterMap_cons, request?] at all
    rw [answersTo]
    cases parts with
    | nil => exact ih all
    | cons first others =>
      rw [List.filter_cons_of_pos (by simp), List.map_cons, List.head?_cons]
      rw [Incoming.ofParts] at all ⊢
      cases parsed : Request.parse (first :: others) with
      | error e =>
        rw [parsed] at all
        exact congrArg _ (ih all)
      | ok r =>
        rw [parsed] at all
        dsimp only at all ⊢
        rw [List.length_cons] at all
        obtain ⟨o, comes⟩ := Option.isSome_iff_exists.mp (all 0 (Nat.zero_lt_succ _))
        rw [Nat.add_zero] at comes
        have later := ih (k := k + 1) fun i within ↦ by
          have here := all (i + 1) (Nat.succ_lt_succ within)
          rwa [Nat.add_comm i, ← Nat.add_assoc] at here
        rw [comes, List.map_append, later, Option.map_some, Option.toList_some, List.map_singleton,
          Answer.head?_write, List.singleton_append]

/-- An answer has three parts. -/
theorem length_of_mem_answersTo {k : Nat} {frames : List Parts} {reply : Parts}
    (among : reply ∈ answersTo f k frames) : reply.length = 3 := by
  induction frames generalizing k with
  | nil => cases among
  | cons parts rest ih =>
    rw [answersTo] at among
    cases holds : Incoming.ofParts parts with
    | ignored =>
      rw [holds] at among
      exact ih among
    | malformed id e =>
      rw [holds] at among
      rcases List.mem_cons.mp among with rfl | later
      · rfl
      · exact ih later
    | request id r =>
      rw [holds] at among
      rcases List.mem_append.mp among with here | later
      · obtain ⟨o, -, rfl⟩ := Option.map_eq_some_iff.mp (Option.mem_toList.mp here)
        exact Answer.length_write id r.format.codec _
      · exact ih later

theorem length_answersTo_le (f : Nat → Option (Outcome Data)) (k : Nat) (frames : List Parts) :
    (answersTo f k frames).length ≤ frames.length := by
  induction frames generalizing k with
  | nil => exact Nat.le_refl 0
  | cons parts rest ih =>
    rw [answersTo, List.length_cons]
    cases Incoming.ofParts parts with
    | ignored => exact (ih k).trans (Nat.le_succ _)
    | malformed id e => exact Nat.succ_le_succ (ih k)
    | request id r =>
      have one : ((f k).map fun o ↦ Answer.write id r.format.codec (o.observe .null)).toList.length ≤ 1 := by
        cases f k <;> simp
      have later := ih (k + 1)
      rw [List.length_append]
      omega

end Answers

/-! ## Connections -/

/-- A connection with all who serve it. -/
structure Connection where
  /-- the frames that arrive -/
  reader : Reader
  /-- the requests that are not answered yet, and what is written -/
  replier : Replier Nat
  /-- the answers that are still to be written, the oldest first -/
  channel : List Parts
  /-- the messages that the mailbox got, with the ids to answer to; they are named by their numbers -/
  messages : List (Bytes × Request)
  /-- the outcomes that the mailbox came to, the oldest first -/
  outcomes : List (Nat × Outcome Data)
  /-- the frames that were taken, the oldest first -/
  taken : List Parts
  /-- all answers that were sent through the channel, the oldest first -/
  sent : List Parts
  /-- no further frame is taken -/
  ended : Bool
  /-- the connection is given up -/
  dropped : Bool

namespace Connection

/-- What one of the parties does at an instant. -/
inductive Event where
  /-- the next frame is taken, or it is seen that there is none -/
  | read
  /-- the mailbox comes to the outcome of a message -/
  | settle (k : Nat) (o : Outcome Data)
  /-- the next answer of the channel is written -/
  | write
  /-- the connection is given up -/
  | drop

/-- A connection on which nothing was said yet. -/
def start (limit : Nat) (stream : Bytes) : Connection :=
  ⟨⟨limit, stream, 0⟩, .start limit, [], [], [], [], [], false, false⟩

/-- An answer is sent through the channel. -/
def send (x : Connection) (reply : Parts) : Connection :=
  { x with channel := x.channel ++ [reply], sent := x.sent ++ [reply] }

/-- A frame is taken: it becomes a message, or is answered with an error. -/
def take (x : Connection) (parts : Parts) : Connection :=
  match Incoming.ofParts parts with
  | .ignored => { x with taken := x.taken ++ [parts] }
  | .malformed id e => { x with taken := x.taken ++ [parts] }.send (Answer.error id e.message)
  | .request id r =>
    { x with
      taken := x.taken ++ [parts]
      messages := x.messages ++ [(id, r)]
      replier := x.replier.await x.messages.length ⟨id, r.format⟩ }

/-- A message that has a ticket comes to an outcome. -/
def settle (x : Connection) (k : Nat) (ticket : Ticket) (o : Outcome Data) : Connection :=
  { x with
    outcomes := x.outcomes ++ [(k, o)]
    replier := { x.replier with outstanding := x.replier.outstanding.filter fun t ↦ t.1 ≠ k } }.send
      (Answer.write ticket.id ticket.format.codec (o.observe .null))

/-- What comes of one event, if it can happen.  A connection is given up when no frame is left to be taken, no
message is left without an outcome, and no answer is left in the channel. -/
def step? (x : Connection) : Event → Option Connection
  | .read =>
    if x.ended then none
    else
      match x.reader.next with
      | (.frame parts _, reader) => some ({ x with reader }.take parts)
      | (_, reader) => some { x with reader, ended := true }
  | .settle k o => (x.replier.outstanding.find? fun t ↦ t.1 = k).map fun t ↦ x.settle k t.2 o
  | .write =>
    match x.channel with
    | [] => none
    | reply :: channel => some { x with replier := x.replier.reply reply, channel }
  | .drop =>
    if x.ended ∧ x.replier.outstanding = [] ∧ x.channel = [] ∧ x.dropped = false then
      some { x with dropped := true }
    else none

/-- What comes of events one after the other. -/
def run? (x : Connection) : List Event → Option Connection
  | [] => some x
  | e :: rest => (x.step? e).bind fun x ↦ x.run? rest

/-- The outcome that is noted of a message. -/
def outcome? (outcomes : List (Nat × Outcome Data)) (k : Nat) : Option (Outcome Data) :=
  (outcomes.find? fun c ↦ c.1 = k).map Prod.snd

/-! ## Writing at once -/

/-- The replier when all answers of the channel are written. -/
def flushed (x : Connection) : Replier Nat := x.channel.foldl Replier.reply x.replier

omit [Wording] in
/-- Answers are written whoever waits. -/
theorem foldl_reply (r : Replier Nat) (outstanding : List (Nat × Ticket)) (replies : List Parts) :
    replies.foldl Replier.reply { r with outstanding } =
      { replies.foldl Replier.reply r with outstanding } := by
  induction replies generalizing r with
  | nil => rfl
  | cons reply rest ih =>
    have first : Replier.reply { r with outstanding } reply = { r.reply reply with outstanding } := by
      rw [Replier.reply, Replier.reply]
      dsimp only
      split
      · rfl
      · split <;> rfl
    rw [List.foldl_cons, List.foldl_cons, first, ih]

omit [Wording] in
theorem outstanding_flushed (x : Connection) : x.flushed.outstanding = x.replier.outstanding := by
  rw [flushed, foldl_reply x.replier x.replier.outstanding x.channel]

omit [Wording] in
theorem flushed_send (x : Connection) (reply : Parts) : (x.send reply).flushed = x.flushed.reply reply := by
  rw [flushed, send, List.foldl_append]
  rfl

/-- Taking a frame is what a replier does that writes at once. -/
theorem flushed_take (x : Connection) (parts : Parts) :
    (x.take parts).flushed = (x.flushed.accept x.messages.length parts).2 := by
  rw [take, Replier.accept]
  cases Incoming.ofParts parts with
  | ignored => rfl
  | malformed id e => exact flushed_send _ _
  | request id r =>
    dsimp only
    rw [flushed, Replier.await, foldl_reply, Replier.await, outstanding_flushed]
    rfl

/-- Settling a message is what a replier does that writes at once. -/
theorem flushed_settle {x : Connection} {k : Nat} {t : Ticket}
    (waits : x.replier.outstanding.find? (fun t ↦ t.1 = k) = some (k, t)) (o : Outcome Data) :
    (x.settle k t o).flushed = x.flushed.settle k (o.observe .null) := by
  rw [settle, flushed_send, flushed, foldl_reply, Replier.settle, outstanding_flushed, waits]
  rfl

omit [Wording] in
/-- Writing what is in the channel makes no difference. -/
theorem flushed_write {x : Connection} {reply : Parts} {channel : List Parts}
    (next : x.channel = reply :: channel) :
    flushed { x with replier := x.replier.reply reply, channel } = x.flushed := by
  rw [flushed, flushed, next, List.foldl_cons]

/-! ## Tickets -/

section Tickets

omit [Wording]

theorem outcome?_eq_none_iff {outcomes : List (Nat × Outcome Data)} {k : Nat} :
    outcome? outcomes k = none ↔ k ∉ outcomes.map Prod.fst := by
  rw [outcome?, Option.map_eq_none_iff, List.find?_eq_none, List.mem_map]
  constructor
  · rintro absent ⟨c, among, rfl⟩
    exact absent c among (decide_eq_true rfl)
  · intro absent c among same
    exact absent ⟨c, among, of_decide_eq_true same⟩

theorem outcome?_concat {outcomes : List (Nat × Outcome Data)} {k : Nat} {o : Outcome Data}
    (still : k ∉ outcomes.map Prod.fst) (i : Nat) :
    outcome? (outcomes ++ [(k, o)]) i = if i = k then some o else outcome? outcomes i := by
  by_cases same : i = k
  · subst same
    have absent := Option.map_eq_none_iff.mp (outcome?_eq_none_iff.mpr still)
    simp [outcome?, absent]
  · simp [outcome?, same, Ne.symm same]

/-- There is a ticket for each message that has no outcome yet. -/
structure Tickets (messages : List (Bytes × Request)) (outcomes : List (Nat × Outcome Data))
    (outstanding : List (Nat × Ticket)) : Prop where
  /-- a message has one outcome at most -/
  once : (outcomes.map Prod.fst).Nodup
  /-- outcomes are those of messages -/
  known : ∀ k ∈ outcomes.map Prod.fst, k < messages.length
  /-- who has no outcome waits -/
  waits : ∀ k t, (k, t) ∈ outstanding ↔
    k ∉ outcomes.map Prod.fst ∧ ∃ id r, messages[k]? = some (id, r) ∧ t = ⟨id, r.format⟩

variable {messages : List (Bytes × Request)} {outcomes : List (Nat × Outcome Data)}
  {outstanding : List (Nat × Ticket)}

theorem Tickets.fresh (h : Tickets messages outcomes outstanding) :
    messages.length ∉ outcomes.map Prod.fst := fun settled ↦ Nat.lt_irrefl _ (h.known _ settled)

/-- One more request becomes a message. -/
theorem Tickets.await (h : Tickets messages outcomes outstanding) (id : Bytes) (r : Request) :
    Tickets (messages ++ [(id, r)]) outcomes (outstanding ++ [(messages.length, ⟨id, r.format⟩)]) where
  once := h.once
  known k settled := by
    rw [List.length_append]
    exact Nat.lt_add_right _ (h.known k settled)
  waits k t := by
    rw [List.mem_append, h.waits, List.mem_singleton, Prod.mk.injEq]
    constructor
    · rintro (⟨still, id', r', found, rfl⟩ | ⟨rfl, rfl⟩)
      · exact ⟨still, id', r', List.getElem?_append_left (List.getElem?_eq_some_iff.mp found).1 ▸ found, rfl⟩
      · exact ⟨h.fresh, id, r, List.getElem?_concat_length, rfl⟩
    · rintro ⟨still, id', r', found, rfl⟩
      rcases Nat.lt_or_ge k messages.length with old | new
      · rw [List.getElem?_append_left old] at found
        exact .inl ⟨still, id', r', found, rfl⟩
      · have within := (List.getElem?_eq_some_iff.mp found).1
        rw [List.length_append, List.length_singleton] at within
        obtain rfl : k = messages.length := by omega
        rw [List.getElem?_concat_length] at found
        cases found
        exact .inr ⟨rfl, rfl⟩

/-- A message comes to its outcome. -/
theorem Tickets.settle (h : Tickets messages outcomes outstanding) {k : Nat} {t : Ticket}
    (waits : (k, t) ∈ outstanding) (o : Outcome Data) :
    Tickets messages (outcomes ++ [(k, o)]) (outstanding.filter fun t ↦ t.1 ≠ k) where
  once := by
    have still := ((h.waits k t).mp waits).1
    rw [List.map_append, List.map_singleton]
    exact List.nodup_append_comm.mp (List.nodup_cons.mpr ⟨still, h.once⟩)
  known i settled := by
    rw [List.map_append, List.mem_append, List.map_singleton, List.mem_singleton] at settled
    rcases settled with old | rfl
    · exact h.known i old
    · obtain ⟨-, id, r, found, -⟩ := (h.waits i t).mp waits
      exact (List.getElem?_eq_some_iff.mp found).1
  waits i t' := by
    rw [List.mem_filter, h.waits, List.map_append, List.mem_append, List.map_singleton, List.mem_singleton]
    simp only [ne_eq, decide_not, Bool.not_eq_true', decide_eq_false_iff_not, not_or]
    tauto

/-- There are no more outcomes than messages. -/
theorem Tickets.length_le (h : Tickets messages outcomes outstanding) :
    outcomes.length ≤ messages.length := by
  have within : outcomes.map Prod.fst ⊆ List.range messages.length := fun k settled ↦
    List.mem_range.mpr (h.known k settled)
  simpa using (List.subperm_of_subset h.once within).length_le

/-- When nobody waits, each message has its outcome. -/
theorem Tickets.all (h : Tickets messages outcomes []) {k : Nat} (message : k < messages.length) :
    (outcome? outcomes k).isSome := by
  rw [Option.isSome_iff_ne_none, Ne, outcome?_eq_none_iff]
  intro still
  exact List.not_mem_nil ((h.waits k _).mpr ⟨still, _, _, List.getElem?_eq_getElem message, rfl⟩)

end Tickets

/-! ## What holds between any two events -/

/-- What was sent through the channel are the answers to what was taken. -/
structure Sound (limit : Nat) (frames left : List Parts) (x : Connection) : Prop where
  /-- the frames are those taken and those left -/
  frames : frames = x.taken ++ left
  /-- those left are still to be read, as long as reading goes on -/
  left : if x.ended then left = [] else x.reader.Yields left
  /-- each request became a message, and nothing else did -/
  messages : x.messages = x.taken.filterMap request?
  /-- a message waits until it has its outcome -/
  tickets : Tickets x.messages x.outcomes x.replier.outstanding
  /-- the answers are those to the frames that were taken -/
  sent : x.sent.Perm (answersTo (outcome? x.outcomes) 0 x.taken)
  /-- if they fit, they are written, up to those in the channel -/
  written : (∀ reply ∈ x.sent, Frame.size reply ≤ limit) → ∃ written, x.sent = written ++ x.channel ∧
    x.replier.writer = ⟨limit, written.flatMap Frame.write⟩ ∧ x.replier.broken = false
  /-- the connection is given up when nothing is left to be done -/
  whenDropped : x.dropped = true → x.ended = true ∧ x.replier.outstanding = [] ∧ x.channel = []

theorem sound_start {limit : Nat} {stream : Bytes} {frames : List Parts}
    (yields : (⟨limit, stream, 0⟩ : Reader).Yields frames) :
    Sound limit frames frames (start limit stream) where
  frames := rfl
  left := yields
  messages := rfl
  tickets := ⟨.nil, fun _ among ↦ absurd among List.not_mem_nil, fun k t ↦ by simp [start, Replier.start]⟩
  sent := .nil
  written _ := ⟨[], rfl, rfl, rfl⟩
  whenDropped given := absurd given (by simp [start])

section Events

variable {limit : Nat} {frames left : List Parts} {x x' : Connection}

/-- What is sent fits if all that was sent fits. -/
theorem Sound.written_send (h : Sound limit frames left x) {reply : Parts}
    (fit : ∀ r ∈ x.sent ++ [reply], Frame.size r ≤ limit) :
    ∃ written, x.sent ++ [reply] = written ++ (x.channel ++ [reply]) ∧
      x.replier.writer = ⟨limit, written.flatMap Frame.write⟩ ∧ x.replier.broken = false := by
  obtain ⟨written, sent, writes⟩ := h.written fun r among ↦ fit r (List.mem_append_left _ among)
  exact ⟨written, by rw [sent, List.append_assoc], writes⟩

/-- A frame is taken from those that are left. -/
theorem Sound.take (h : Sound limit frames left x) {parts : Parts} {left' : List Parts}
    (rest : left = parts :: left') (going : x.ended = false) {reader : Reader}
    (more : reader.Yields left') : Sound limit frames left' ({ x with reader }.take parts) := by
  have split : frames = x.taken ++ [parts] ++ left' := by rw [h.frames, rest, List.append_cons]
  have yields : if x.ended then left' = [] else reader.Yields left' := by
    rw [going]
    exact more
  have undropped {p : Prop} (given : x.dropped = true) : p := by
    have ended := (h.whenDropped given).1
    rw [going] at ended
    cases ended
  have messages : (x.taken ++ [parts]).filterMap request? = x.messages ++ (request? parts).toList := by
    rw [List.filterMap_append, h.messages, List.filterMap_cons]
    cases request? parts <;> rfl
  have answers := answersTo_append (f := outcome? x.outcomes) 0 x.taken [parts]
  rw [Nat.zero_add, ← h.messages, answersTo.eq_def _ _ [parts]] at answers
  rw [request?] at messages
  rw [Connection.take]
  cases holds : Incoming.ofParts parts with
  | ignored =>
    simp only [holds, answersTo, List.append_nil] at answers
    simp only [holds, Option.toList_none, List.append_nil] at messages
    exact { h with
      frames := split
      left := yields
      messages := messages.symm
      sent := answers ▸ h.sent }
  | malformed id e =>
    simp only [holds, answersTo] at answers
    simp only [holds, Option.toList_none, List.append_nil] at messages
    exact { h with
      frames := split
      left := yields
      messages := messages.symm
      sent := answers ▸ h.sent.append_right _
      written := h.written_send
      whenDropped := undropped }
  | request id r =>
    simp only [holds, answersTo, outcome?_eq_none_iff.mpr h.tickets.fresh, Option.map_none,
      Option.toList_none, List.append_nil] at answers
    simp only [holds, Option.toList_some] at messages
    exact { h with
      frames := split
      left := yields
      messages := messages.symm
      tickets := h.tickets.await id r
      sent := answers ▸ h.sent
      whenDropped := undropped }

/-- The mailbox comes to the outcome of a message. -/
theorem Sound.settle (h : Sound limit frames left x) {k : Nat} {t : Ticket}
    (waits : (k, t) ∈ x.replier.outstanding) (o : Outcome Data) :
    Sound limit frames left (x.settle k t o) := by
  obtain ⟨still, id, r, asked, rfl⟩ := (h.tickets.waits k t).mp waits
  exact { h with
    tickets := h.tickets.settle waits o
    sent := by
      refine (List.perm_append_singleton _ _).trans ((h.sent.cons _).trans ?_)
      have place : 0 + k = k := Nat.zero_add k
      refine (answersTo_settle (h.messages ▸ asked) ?_ ?_ ?_).symm
      · exact outcome?_eq_none_iff.mpr (place.symm ▸ still)
      · exact (outcome?_concat still _).trans (if_pos place)
      · exact fun i other ↦ (outcome?_concat still i).trans (if_neg (place ▸ other))
    written := h.written_send
    whenDropped := fun given ↦ absurd ((h.whenDropped given).2.1 ▸ waits) List.not_mem_nil }

/-- The next answer of the channel is written. -/
theorem Sound.write (h : Sound limit frames left x) {reply : Parts} {channel : List Parts}
    (next : x.channel = reply :: channel) :
    Sound limit frames left { x with replier := x.replier.reply reply, channel } := by
  have outstanding : (x.replier.reply reply).outstanding = x.replier.outstanding := by
    rw [Replier.reply]
    split
    · rfl
    · split <;> rfl
  exact { h with
    tickets := outstanding ▸ h.tickets
    written := fun fit ↦ by
      obtain ⟨written, sent, writer, going⟩ := h.written fit
      rw [next] at sent
      have within : Frame.size reply ≤ x.replier.writer.limit := by
        rw [writer]
        exact fit reply (sent ▸ List.mem_append_right _ List.mem_cons_self)
      refine ⟨written ++ [reply], by rw [sent, List.append_assoc, List.singleton_append], ?_⟩
      rw [Replier.reply_of_fits going within, writer]
      simp [Writer.writeEncoded, going]
    whenDropped := fun given ↦ by
      have empty := (h.whenDropped given).2.2
      rw [next] at empty
      cases empty }

/-- Whatever happens, the answers that were sent are those to the frames that were taken. -/
theorem Sound.step (h : Sound limit frames left x) {e : Event} (step : x.step? e = some x') :
    ∃ left', Sound limit frames left' x' := by
  cases e with
  | read =>
    rw [step?] at step
    split at step
    · cases step
    · next going =>
      have going : x.ended = false := by simpa using going
      have yields := h.left
      rw [going] at yields
      cases yields with
      | finish none =>
        split at step
        · next parts rest _ read => exact absurd (congrArg Prod.fst read) (none parts rest)
        · cases step
          exact ⟨[], { h with
            left := rfl
            whenDropped := fun given ↦ ⟨rfl, (h.whenDropped given).2⟩ }⟩
      | frame first more =>
        rw [first] at step
        cases step
        exact ⟨_, h.take rfl going more⟩
  | settle k o =>
    obtain ⟨⟨k', t⟩, found, rfl⟩ := Option.map_eq_some_iff.mp step
    obtain rfl : k' = k := by simpa using List.find?_some found
    exact ⟨left, h.settle (List.mem_of_find?_eq_some found) o⟩
  | write =>
    rw [step?] at step
    split at step
    · cases step
    · next next =>
      cases step
      exact ⟨left, h.write next⟩
  | drop =>
    rw [step?] at step
    split at step
    · next idle =>
      cases step
      exact ⟨left, { h with whenDropped := fun _ ↦ ⟨idle.1, idle.2.1, idle.2.2.1⟩ }⟩
    · cases step

/-- Whatever happens, the answers that were sent are those to the frames that were taken. -/
theorem Sound.run (h : Sound limit frames left x) {events : List Event}
    (run : x.run? events = some x') : ∃ left', Sound limit frames left' x' := by
  induction events generalizing left x with
  | nil =>
    cases run
    exact ⟨left, h⟩
  | cons e rest ih =>
    obtain ⟨y, step, run⟩ := Option.bind_eq_some_iff.mp run
    obtain ⟨left', next⟩ := h.step step
    exact ih next run

/-- If nothing more can happen, the connection is given up. -/
theorem dropped_of_stuck (stuck : ∀ e, x.step? e = none) : x.dropped = true := by
  have ended : x.ended = true := by
    by_contra going
    have reads := stuck .read
    rw [step?, if_neg going] at reads
    split at reads <;> cases reads
  have outstanding : x.replier.outstanding = [] := by
    cases outstanding : x.replier.outstanding with
    | nil => rfl
    | cons t rest =>
      have settles := stuck (.settle t.1 .undefined)
      simp [step?, outstanding] at settles
  have channel : x.channel = [] := by
    cases channel : x.channel with
    | nil => rfl
    | cons reply rest =>
      have writes := stuck .write
      rw [step?, channel] at writes
      cases writes
  by_contra kept
  have drops := stuck .drop
  simp [step?, ended, outstanding, channel, kept] at drops

/-- What was done on a connection: frames were taken and their end was seen, messages came to outcomes,
answers were sent, and the connection was given up. -/
def done (x : Connection) : Nat :=
  x.taken.length + x.ended.toNat + x.outcomes.length + x.sent.length + x.dropped.toNat

/-- Something is done at every event, and what is sent is written at another. -/
theorem done_of_step {e : Event} (step : x.step? e = some x') :
    x'.done + x.channel.length = x.done + x'.channel.length + 1 := by
  cases e with
  | read =>
    rw [step?] at step
    split at step
    · cases step
    · next going =>
      have going : x.ended = false := by simpa using going
      split at step
      · next parts _ _ _ =>
        cases step
        rw [Connection.take]
        cases Incoming.ofParts parts <;> simp [done, send] <;> omega
      · cases step
        simp [done, going]
        omega
  | settle k o =>
    obtain ⟨t, -, rfl⟩ := Option.map_eq_some_iff.mp step
    simp [done, Connection.settle, send]
    omega
  | write =>
    rw [step?] at step
    split at step
    · cases step
    · next next =>
      cases step
      simp [done, next]
      omega
  | drop =>
    rw [step?] at step
    split at step
    · next idle =>
      cases step
      simp [done, idle.2.2.2]
      omega
    · cases step

theorem done_of_run {events : List Event} (run : x.run? events = some x') :
    x'.done + x.channel.length = x.done + x'.channel.length + events.length := by
  induction events generalizing x with
  | nil =>
    cases run
    rfl
  | cons e rest ih =>
    obtain ⟨y, step, run⟩ := Option.bind_eq_some_iff.mp run
    have first := done_of_step step
    have later := ih run
    rw [List.length_cons]
    omega

/-- No more is done than there is to be done. -/
theorem Sound.done_le (h : Sound limit frames left x) : x.done ≤ 3 * frames.length + 2 := by
  have taken := congrArg List.length h.frames
  rw [List.length_append] at taken
  have messages : x.messages.length ≤ x.taken.length := by
    rw [h.messages]
    exact List.length_filterMap_le _ _
  have outcomes := h.tickets.length_le
  have sent := h.sent.length_eq
  have answers := length_answersTo_le (outcome? x.outcomes) 0 x.taken
  have ended := Bool.toNat_le x.ended
  have dropped := Bool.toNat_le x.dropped
  rw [done]
  omega

end Events

/-! ## Answers -/

/-- Whatever the frames of a connection, whatever the outcomes to which the mailbox comes, and in whatever
order, if all answers fit then they are those to the frames that were taken, each sent once, and they are
written in the order in which they were sent.  Each request becomes one message and is answered in its own
format with the outcome of the message; each other frame that has parts is answered with an error, and the
next one is taken.  No run of a connection goes on forever, and where one cannot go on, the connection was
given up; by then all frames were taken, all messages have outcomes, and what was written is one answer of
three parts for each frame that has parts, with the first part of the frame as its first part. -/
theorem answered_once {limit : Nat} {stream : Bytes} {frames : List Parts} {events : List Event}
    {x : Connection} (yields : (⟨limit, stream, 0⟩ : Reader).Yields frames)
    (run : (start limit stream).run? events = some x) (fit : ∀ reply ∈ x.sent, Frame.size reply ≤ limit) :
    (x.taken <+: frames ∧ x.messages = x.taken.filterMap request? ∧
      x.sent.Perm (answersTo (outcome? x.outcomes) 0 x.taken) ∧
      ∃ written, x.sent = written ++ x.channel ∧
        x.replier.writer.written = written.flatMap Frame.write) ∧
    (events.length ≤ 3 * frames.length + 2 ∧ ((∀ e, x.step? e = none) → x.dropped = true)) ∧
    (x.dropped = true → x.taken = frames ∧ (∀ k < x.messages.length, (outcome? x.outcomes k).isSome) ∧
      x.replier.writer.written = x.sent.flatMap Frame.write ∧ (∀ reply ∈ x.sent, reply.length = 3) ∧
      (x.sent.map List.head?).Perm ((frames.filter (· ≠ [])).map List.head?)) ∧
    ∀ parts id r, request? parts = some (id, r) ↔ ∃ operation name payload,
      parts = [id, operation, name, payload] ∧ Text.decode? operation = some r.operation ∧
      Text.decode? name = some r.format.name ∧ r.format.decode payload = .ok (.list r.arguments) := by
  obtain ⟨left, sound⟩ := (sound_start yields).run run
  obtain ⟨written, sent, writer, going⟩ := sound.written fit
  refine ⟨⟨⟨left, sound.frames.symm⟩, sound.messages, sound.sent, written, sent, by rw [writer]⟩,
    ⟨?_, dropped_of_stuck⟩, fun dropped ↦ ?_, fun parts id r ↦ request?_eq_some_iff⟩
  · have count : x.done + 0 = 0 + x.channel.length + events.length := done_of_run run
    have bound := sound.done_le
    omega
  · obtain ⟨ended, outstanding, channel⟩ := sound.whenDropped dropped
    have nothing := sound.left
    rw [ended] at nothing
    have taken : x.taken = frames := by rw [sound.frames, nothing, List.append_nil]
    have all (k : Nat) (message : k < x.messages.length) : (outcome? x.outcomes k).isSome :=
      (outstanding ▸ sound.tickets).all message
    rw [channel, List.append_nil] at sent
    refine ⟨taken, all, by rw [writer, sent], fun reply among ↦ ?_, ?_⟩
    · exact length_of_mem_answersTo (sound.sent.mem_iff.mp among)
    · rw [← taken, ← head_answersTo (k := 0) (f := outcome? x.outcomes) fun i message ↦ ?_]
      · exact sound.sent.map _
      · rw [Nat.zero_add]
        exact all i (sound.messages ▸ message)

/-- A request, one that lacks a part, one that names no operation, and one in another format. -/
def inquiries : List Parts :=
  [[[1], Text.encode "add", Text.encode "json", Text.encode "[1]"],
    [[2, 2], Text.encode "add"],
    [[], [255], Text.encode "json", Text.encode "[]"],
    [[4], Text.encode "report", Text.encode "json", Text.encode "[]"]]

end Connection

end Serving

attribute [local instance] Wording.brief

/-- The first request is the last to be answered, when the end of the frames was seen already. -/
theorem Connection.answered_once_overtaken :
    ∃ x, (start 64 (inquiries.flatMap Frame.write)).run? [.read, .read, .read, .write, .read,
        .settle 1 (.error "no report"), .read, .write, .write, .settle 0 (.value (.int 1)), .write,
        .drop] = some x ∧
      x.messages = [([1], ⟨"add", .json, [.int 1]⟩), ([4], ⟨"report", .json, []⟩)] ∧
      x.replier.writer.written = [[[2, 2], [], Text.encode "expected 4 request parts but 2 were given"],
        [[], [], Text.encode "operation name is not valid UTF-8"],
        [[4], [], Text.encode "no report"], [[1], Text.encode "1", []]].flatMap Frame.write := by
  have yields : (⟨64, inquiries.flatMap Frame.write, 0⟩ : Reader).Yields inquiries := by
    have within : ∀ f ∈ inquiries, Frame.size f ≤ 64 := by decide +kernel
    simpa using Reader.yields_write (by decide) within (Frame.read_nil_ne 64) 0
  have runs : ((start 64 (inquiries.flatMap Frame.write)).run? [.read, .read, .read, .write, .read,
      .settle 1 (.error "no report"), .read, .write, .write, .settle 0 (.value (.int 1)), .write,
      .drop]).map (fun x ↦ (x.sent, x.dropped)) =
      some ([[[2, 2], [], Text.encode "expected 4 request parts but 2 were given"],
        [[], [], Text.encode "operation name is not valid UTF-8"],
        [[4], [], Text.encode "no report"], [[1], Text.encode "1", []]], true) := by
    decide +kernel
  obtain ⟨x, run, same⟩ := Option.map_eq_some_iff.mp runs
  obtain ⟨sent, dropped⟩ := Prod.mk.inj same
  have fit : ∀ reply ∈ x.sent, Frame.size reply ≤ 64 := by
    rw [sent]
    decide +kernel
  obtain ⟨⟨-, messages, -, -⟩, -, whenDropped, -⟩ := answered_once yields run fit
  obtain ⟨taken, -, written, -, -⟩ := whenDropped dropped
  exact ⟨x, run, by rw [messages, taken]; cbv, by rw [written, sent]⟩

end Troupe.Net
