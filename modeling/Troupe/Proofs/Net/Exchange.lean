import Troupe.Net.Service
import Troupe.Proofs.Net.Frame
import Troupe.Proofs.Net.Request
import Troupe.Proofs.Net.Session

/-!
# Exchanges

An exchange is a requester and a replier at the two ends of a connection, with the bytes under way in either
direction.  Any number of requests may be under way, and the mailbox comes to the outcomes of its messages in
whatever order.

* What a promise may get is `Genuine`, and stays so (`Genuine.mono`).
* Each request is in one place at a time: handed over, on its way, or a message.  A `Ledger` says where.
* The end that answers has a ticket for each message without an outcome (`Serving`).
-/

namespace Troupe.Net

open Requester

variable [Wording]

/-! ## Taking frames -/

theorem Requester.frameId?_answer (id : UInt64) (format : Format) (result : Except String Data) :
    frameId? (Answer.write (idBytes id) format.codec result) = some id := by
  cases result <;> exact frameId?_cons id _

/-- An answer settles who waits under its id, with what was answered. -/
theorem Requester.receive_write {κ : Type} {r : Requester κ} {format : Format}
    (encoding : r.codec = format.codec) {result : Except String Data}
    (value : ∀ d, result = .ok d → format.RoundTrips d) (id : UInt64) :
    r.receive (Answer.write (idBytes id) format.codec result) = r.settle id result := by
  rw [receive, frameId?_answer, encoding, Answer.result_write value]

namespace Replier

variable {κ : Type}

/-- Takes the parts of a frame.  A request is the next message, and waits for its answer as `k`. -/
def accept (r : Replier κ) (k : κ) (parts : Parts) : Option (Bytes × Request) × Replier κ :=
  match Incoming.ofParts parts with
  | .ignored => (none, r)
  | .malformed id e => (none, r.reply (Answer.error id e.message))
  | .request id request => (some (id, request), r.await k ⟨id, request.format⟩)

variable {r : Replier κ}

/-- A request is taken as it was written. -/
theorem accept_write {request : Request} (read : request.format.RoundTrips (.list request.arguments))
    (k : κ) (id : Bytes) :
    r.accept k (request.write id) = (some (id, request), r.await k ⟨id, request.format⟩) := by
  have parsed : Incoming.ofParts (request.write id) = .request id request := by
    have same := Request.parse_write read id
    rw [Request.write, Request.parts] at same ⊢
    simp only [Incoming.ofParts, same]
  rw [accept, parsed]

omit [Wording] in
/-- An answer that fits a frame is written. -/
theorem reply_of_fits {parts : Parts} (going : r.broken = false)
    (fits : Frame.size parts ≤ r.writer.limit) :
    r.reply parts = { r with writer := r.writer.writeEncoded (Frame.write parts) } := by
  have framed : Frame.encode r.writer.limit parts = .ok (Frame.write parts) :=
    Frame.encode_eq_ok_iff.mpr ⟨fits, rfl⟩
  simp [reply, going, Writer.write, framed, Except.map]

/-- The answer to a request is written, if it fits a frame. -/
theorem settle_of_fits [DecidableEq κ] {k : κ} {t : Ticket} {result : Except String Data}
    (waits : r.outstanding.find? (fun o ↦ o.1 = k) = some (k, t)) (going : r.broken = false)
    (fits : Frame.size (Answer.write t.id t.format.codec result) ≤ r.writer.limit) :
    r.settle k result = { r with
      outstanding := r.outstanding.filter fun o ↦ o.1 ≠ k
      writer := r.writer.writeEncoded (Frame.write (Answer.write t.id t.format.codec result)) } := by
  simp only [settle, waits]
  exact reply_of_fits going fits

/-- A served mailbox takes frames like this, and its promises name the messages. -/
theorem take_eq_accept {ι σ : Type} (r : Replier PromiseRef) (mailbox : Mailbox) (parts : Parts)
    (sys : System ι σ) : ∃ p, (r.take mailbox parts sys).1 = (r.accept p parts).2 := by
  rw [take]
  cases taken : Incoming.ofParts parts with
  | ignored => exact ⟨⟨0⟩, by rw [accept, taken]⟩
  | malformed id e => exact ⟨⟨0⟩, by rw [accept, taken]⟩
  | request id request => exact ⟨_, by rw [accept, taken]⟩

end Replier

/-! ## Exchanges -/

/-- The event is one of those who send, or the connection is lost. -/
def Session.Event.isLocal : Session.Event → Bool
  | .write | .receive _ => false
  | _ => true

/-- Two ends of a connection, and what is under way. -/
structure Exchange where
  /-- the end that asks -/
  session : Session
  /-- the bytes on their way to the end that answers -/
  up : Bytes
  /-- the end that answers -/
  replier : Replier Nat
  /-- the messages that the mailbox got, with the ids to answer to; they are named by their numbers -/
  served : List (Bytes × Request)
  /-- the outcomes that the mailbox came to, the oldest first -/
  outcomes : List (Nat × Outcome Data)
  /-- the bytes on their way to the end that asks -/
  down : Bytes

namespace Exchange

/-- What happens at an instant. -/
inductive Event where
  /-- one of those who send gets further, or the connection is lost -/
  | client (e : Session.Event)
  /-- a request is written -/
  | write
  /-- a frame is taken by the end that answers -/
  | serve
  /-- the mailbox comes to the outcome of a message -/
  | settle (k : Nat) (o : Outcome Data)
  /-- a frame is taken by the end that asks -/
  | deliver

/-- A connection on which nothing happened. -/
def start (format : Format) (limit : Nat) : Exchange :=
  ⟨.start format.codec limit, [], .start limit, [], [], []⟩

/-- What a replier did is noted, and what it wrote is on its way. -/
def told (x : Exchange) (replier : Replier Nat) : Exchange :=
  { x with replier, down := x.down ++ replier.writer.written.drop x.replier.writer.written.length }

/-- What comes of one event, if it can happen. -/
def step? (x : Exchange) : Event → Option Exchange
  | .client e => if e.isLocal then (x.session.step? e).map fun session ↦ { x with session } else none
  | .write =>
    let (frame, settled) := x.session.requester.writeNext
    some { x with session := x.session.after settled, up := x.up ++ frame.getD [] }
  | .serve =>
    match Frame.read x.replier.writer.limit x.up with
    | .frame parts rest =>
      let (message, replier) := x.replier.accept x.served.length parts
      some ({ x with up := rest, served := x.served ++ message.toList }.told replier)
    | _ => none
  | .settle k o =>
    if k < x.served.length ∧ k ∉ x.outcomes.map Prod.fst then
      some ({ x with outcomes := x.outcomes ++ [(k, o)] }.told (x.replier.settle k (o.observe .null)))
    else none
  | .deliver =>
    match Frame.read x.session.requester.limit x.down with
    | .frame parts rest =>
      some { x with session := x.session.after (x.session.requester.receive parts), down := rest }
    | _ => none

/-- What comes of events one after the other. -/
def run? (x : Exchange) : List Event → Option Exchange
  | [] => some x
  | e :: rest => (x.step? e).bind fun x ↦ x.run? rest

/-- The request of a send is a message: the name of the operation, the format and the arguments. -/
def Serves (x : Exchange) (n k : Nat) : Prop :=
  ∃ send format, x.session.sends[n]? = some send ∧ x.session.requester.codec = format.codec ∧
    x.served[k]? = some (idBytes send.id, ⟨send.operation, format, send.arguments⟩)

/-- What a promise may get: the loss of the connection, the size of its own request, or the outcome of its
own message. -/
inductive Genuine (x : Exchange) (n : Nat) : Except String Data → Prop where
  /-- the connection is lost -/
  | lost (gone : x.session.requester.closed = true) : Genuine x n lost
  /-- the request is too large for a frame -/
  | oversized (send : Send) (found : x.session.sends[n]? = some send)
      (large : x.session.requester.limit < Frame.size (x.session.parts send)) :
      Genuine x n (.error
        (Frame.oversized (Frame.size (x.session.parts send)) x.session.requester.limit).message)
  /-- the mailbox came to the outcome of the message -/
  | answered (k : Nat) (o : Outcome Data) (serves : x.Serves n k) (outcome : (k, o) ∈ x.outcomes) :
      Genuine x n (o.observe .null)

/-- Nothing is under way any more, and every message has its outcome. -/
structure Quiet (x : Exchange) : Prop where
  /-- the connection is not lost -/
  going : x.session.requester.closed = false
  /-- all who send have returned their promises -/
  returned : ∀ send ∈ x.session.sends, send.phase = .returned
  /-- all requests are written -/
  outgoing : x.session.requester.outgoing = []
  /-- all frames of requests are taken -/
  up : x.up = []
  /-- the mailbox came to all outcomes -/
  outcomes : ∀ k < x.served.length, k ∈ x.outcomes.map Prod.fst
  /-- all frames of answers are taken -/
  down : x.down = []

/-! ## What travels -/

/-- An outcome travels in a format under a limit: its value is read back, and its answer fits a frame. -/
def Travels (format : Format) (limit : Nat) (o : Outcome Data) : Prop :=
  (∀ d, o = .value d → format.RoundTrips d) ∧
    ∀ id : UInt64, Frame.size (Answer.write (idBytes id) format.codec (o.observe .null)) ≤ limit

/-- What an event brings into the exchange travels. -/
def Event.Travels (format : Format) (limit : Nat) : Event → Prop
  | .client (.draw _ arguments) => format.RoundTrips (.list arguments)
  | .settle _ o => Exchange.Travels format limit o
  | _ => True

omit [Wording] in
/-- What is observed of an outcome is read back, if its value is. -/
theorem roundTrips_observe {format : Format} {o : Outcome Data}
    (read : ∀ d, o = .value d → format.RoundTrips d) (d : Data) (observed : o.observe .null = .ok d) :
    format.RoundTrips d := by
  cases o with
  | undefined =>
    cases observed
    exact format.roundTrips_null
  | value d =>
    cases observed
    exact read _ rfl
  | error message => cases observed

theorem Travels.roundTrips {format : Format} {limit : Nat} {o : Outcome Data}
    (travels : Travels format limit o) : ∀ d, o.observe .null = .ok d → format.RoundTrips d :=
  roundTrips_observe travels.1

/-! ## What lasts -/

/-- What an event leaves as it is. -/
structure Extends (x x' : Exchange) : Prop where
  /-- the end that asks goes on -/
  session : x.session.Extends x'.session
  /-- messages stay, and keep their numbers -/
  served : x.served <+: x'.served
  /-- outcomes stay -/
  outcomes : x.outcomes ⊆ x'.outcomes

section Lasting

variable {x x' : Exchange} {n k : Nat} {r : Except String Data}

theorem Serves.mono (h : x.Serves n k) (ext : x.Extends x') : x'.Serves n k := by
  obtain ⟨send, format, found, encoding, message⟩ := h
  obtain ⟨phase, found', -⟩ := ext.session.sends found
  obtain ⟨more, all⟩ := ext.served
  refine ⟨{ send with phase }, format, found', ext.session.settings.1.trans encoding, ?_⟩
  rw [← all, List.getElem?_append_left (List.getElem?_eq_some_iff.mp message).1, message]

theorem Genuine.mono (h : x.Genuine n r) (ext : x.Extends x') : x'.Genuine n r := by
  cases h with
  | lost gone => exact .lost (ext.session.closed gone)
  | oversized send found large =>
    obtain ⟨phase, found', -⟩ := ext.session.sends found
    have parts : x'.session.parts { send with phase } = x.session.parts send := by
      rw [Session.parts, Session.parts, ext.session.settings.1]
    have result := Genuine.oversized (x := x') { send with phase } found'
    rw [parts, ext.session.settings.2] at result
    exact result large
  | answered k o serves outcome => exact .answered k o (serves.mono ext) (ext.outcomes outcome)

/-- What promises got stays genuine, if what is due is. -/
theorem genuine_of_settles (h : ∀ n r, (n, r) ∈ x.session.settled → x.Genuine n r) (ext : x.Extends x')
    {e : Session.Event} (settles : x.session.Settles x'.session e)
    (due : ∀ n r, x.session.Due e n r → x'.Genuine n r) :
    ∀ n r, (n, r) ∈ x'.session.settled → x'.Genuine n r := by
  intro n r settled
  obtain ⟨new, all, duly⟩ := settles
  rw [all, List.mem_append] at settled
  rcases settled with old | new
  · exact (h n r old).mono ext
  · exact due n r ((duly n r).mp new)

end Lasting

/-! ## Where requests are -/

/-- A request under way, with the number of its send. -/
structure Call where
  /-- the number of the send -/
  number : Nat
  /-- the send -/
  send : Send

namespace Call

variable (format : Format) (c : Call)

/-- What is asked for. -/
def request : Request := ⟨c.send.operation, format, c.send.arguments⟩

/-- The parts that it travels as. -/
def parts : Parts := (c.request format).write (idBytes c.send.id)

/-- The parts that its answer travels as. -/
def reply (o : Outcome Data) : Parts := Answer.write (idBytes c.send.id) format.codec (o.observe .null)

/-- What is needed to answer it. -/
def ticket : Ticket := ⟨idBytes c.send.id, format⟩

end Call

/-- The requests and answers under way, each line of them with the oldest first. -/
structure Ledger where
  /-- the requests handed over and not yet written -/
  queue : List Call
  /-- the requests on their way -/
  flight : List Call
  /-- the requests that became messages -/
  messages : List Call
  /-- the answers on their way -/
  answers : List (Call × Outcome Data)

namespace Ledger

/-- All requests that were handed over, in the order in which they were. -/
def calls (l : Ledger) : List Call := l.messages ++ l.flight ++ l.queue

/-- A request is under way, or its answer is still to come. -/
inductive Holds (l : Ledger) (outcomes : List (Nat × Outcome Data)) : Nat → Prop where
  | queued (c : Call) (among : c ∈ l.queue) : Holds l outcomes c.number
  | flying (c : Call) (among : c ∈ l.flight) : Holds l outcomes c.number
  | message (k : Nat) (c : Call) (found : l.messages[k]? = some c)
      (still : k ∉ outcomes.map Prod.fst) : Holds l outcomes c.number
  | answered (a : Call × Outcome Data) (among : a ∈ l.answers) : Holds l outcomes a.1.number

omit [Wording] in
/-- More requests may be handed over. -/
theorem Holds.handOver {l : Ledger} {outcomes : List (Nat × Outcome Data)} {n : Nat}
    (h : l.Holds outcomes n) (c : Call) : { l with queue := l.queue ++ [c] }.Holds outcomes n := by
  cases h with
  | queued c' among => exact .queued c' (List.mem_append_left _ among)
  | flying c' among => exact .flying c' among
  | message k c' found still => exact .message k c' found still
  | answered a among => exact .answered a among

end Ledger

/-! ## The end that answers -/

/-- The end that answers has a ticket for each message that has no outcome yet. -/
structure Serving (format : Format) (limit : Nat) (messages : List Call)
    (served : List (Bytes × Request)) (outcomes : List (Nat × Outcome Data))
    (replier : Replier Nat) : Prop where
  /-- the messages are the requests -/
  served : served = messages.map fun c ↦ (idBytes c.send.id, c.request format)
  /-- a message has one outcome at most -/
  once : (outcomes.map Prod.fst).Nodup
  /-- outcomes are those of messages -/
  known : ∀ k ∈ outcomes.map Prod.fst, k < messages.length
  /-- there is a ticket for each message without an outcome -/
  tickets : ∀ k t, (k, t) ∈ replier.outstanding ↔
    k ∉ outcomes.map Prod.fst ∧ ∃ c, messages[k]? = some c ∧ t = c.ticket format
  /-- answers can be written -/
  writes : replier.broken = false ∧ replier.writer.limit = limit

section Serving

variable {format : Format} {limit : Nat} {messages : List Call} {served : List (Bytes × Request)}
  {outcomes : List (Nat × Outcome Data)} {replier : Replier Nat}

omit [Wording] in
theorem Serving.length (h : Serving format limit messages served outcomes replier) :
    served.length = messages.length := by
  rw [h.served, List.length_map]

omit [Wording] in
/-- A request may become a message. -/
theorem Serving.await (h : Serving format limit messages served outcomes replier) (c : Call) :
    Serving format limit (messages ++ [c]) (served ++ [(idBytes c.send.id, c.request format)]) outcomes
      (replier.await served.length (c.ticket format)) where
  served := by rw [h.served, List.map_append, List.map_singleton]
  once := h.once
  known k settled := by
    have bound := h.known k settled
    rw [List.length_append]
    omega
  tickets k t := by
    have fresh : messages.length ∉ outcomes.map Prod.fst := fun settled ↦
      absurd (h.known _ settled) (Nat.lt_irrefl _)
    rw [Replier.await, List.mem_append, h.tickets, List.mem_singleton, Prod.mk.injEq, h.length,
      List.getElem?_append]
    constructor
    · rintro (⟨still, c', found, rfl⟩ | ⟨rfl, rfl⟩)
      · rw [if_pos (List.getElem?_eq_some_iff.mp found).1]
        exact ⟨still, c', found, rfl⟩
      · rw [if_neg (Nat.lt_irrefl _), Nat.sub_self]
        exact ⟨fresh, c, rfl, rfl⟩
    · rintro ⟨still, c', found, rfl⟩
      split at found
      · exact .inl ⟨still, c', found, rfl⟩
      · rename_i beyond
        rw [List.getElem?_singleton] at found
        split at found
        · cases found
          exact .inr ⟨by omega, rfl⟩
        · cases found
  writes := h.writes

/-- The mailbox may come to the outcome of a message, and its answer is written. -/
theorem Serving.settle (h : Serving format limit messages served outcomes replier) {k : Nat} {c : Call}
    (found : messages[k]? = some c) (still : k ∉ outcomes.map Prod.fst) {o : Outcome Data}
    (travels : Travels format limit o) :
    Serving format limit messages served (outcomes ++ [(k, o)]) (replier.settle k (o.observe .null)) ∧
      (replier.settle k (o.observe .null)).writer.written =
        replier.writer.written ++ Frame.write (c.reply format o) := by
  have ticket : replier.outstanding.find? (fun p ↦ p.1 = k) = some (k, c.ticket format) := by
    -- Tickets of one message are alike, so the first that is found is the one that was kept.
    cases first : replier.outstanding.find? fun p ↦ p.1 = k with
    | none =>
      have waits := (h.tickets k (c.ticket format)).mpr ⟨still, c, found, rfl⟩
      exact absurd (decide_eq_true rfl) (List.find?_eq_none.mp first _ waits)
    | some p =>
      obtain ⟨k', t⟩ := p
      obtain rfl : k' = k := by simpa using List.find?_some first
      obtain ⟨-, c', found', rfl⟩ := (h.tickets k' t).mp (List.mem_of_find?_eq_some first)
      obtain rfl := Option.some.inj (found.symm.trans found')
      rfl
  have written : replier.settle k (o.observe .null) = _ :=
    Replier.settle_of_fits ticket h.writes.1 (h.writes.2 ▸ travels.2 c.send.id)
  rw [written]
  refine ⟨⟨h.served, ?_, fun k' settled ↦ ?_, fun k' t ↦ ?_, h.writes⟩, rfl⟩
  · rw [List.map_append, List.map_singleton]
    refine List.nodup_append.mpr ⟨h.once, List.nodup_singleton k, fun k' settled k'' same both ↦ still ?_⟩
    rwa [both, List.mem_singleton.mp same] at settled
  · rw [List.map_append, List.mem_append, List.map_singleton, List.mem_singleton] at settled
    rcases settled with old | rfl
    · exact h.known k' old
    · exact (List.getElem?_eq_some_iff.mp found).1
  · simp only [List.mem_filter, h.tickets, List.map_append, List.map_singleton, List.mem_append,
      List.mem_singleton, not_or, decide_not, Bool.not_eq_true', decide_eq_false_iff_not]
    exact ⟨fun ⟨⟨still, found⟩, other⟩ ↦ ⟨⟨still, other⟩, found⟩,
      fun ⟨⟨still, other⟩, found⟩ ↦ ⟨⟨still, found⟩, other⟩⟩

end Serving

end Exchange

end Troupe.Net
