import Mathlib
import Troupe.Net.Requester
import Troupe.Proofs.Net.Delivery

/-!
# A remote call is a local one

A mailbox that is called over a connection answers what it answers to a call at hand: the operation, the
format and the arguments arrive as they were sent, and so do the value or the error of the answer.  An answer
without a value part is an error, and never the answer of a value.
-/

namespace Troupe.Net

open Requester Exchange

section RemoteCalls

variable [Wording]

/-- The parts are written as a frame, and read from the start of any stream. -/
def Frame.Arrives (limit : Nat) (parts : Parts) : Prop :=
  ∃ bytes, Frame.encode limit parts = .ok bytes ∧
    ∀ rest, Frame.read limit (bytes ++ rest) = .frame parts rest

omit [Wording] in
theorem Frame.arrives_of_fits {limit : Nat} (room : limit < 2 ^ 32) {parts : Parts}
    (fits : Frame.size parts ≤ limit) : Frame.Arrives limit parts :=
  ⟨Frame.write parts, Frame.encode_eq_ok_iff.mpr ⟨fits, rfl⟩, Frame.read_write room fits⟩

/-- A send hands over the request under the id that it draws. -/
theorem Requester.outgoing_send {κ : Type} {r : Requester κ} (going : r.closed = false)
    (writing : r.stopped = false) {format : Format} (encoding : r.codec = format.codec) (k : κ)
    (operation : String) (arguments : List Data) :
    (r.send k operation arguments).2.outgoing =
      r.outgoing ++ [Request.write (idBytes r.nextId) ⟨operation, format, arguments⟩] := by
  simp [send, encoding, register, going, handOver, writing, Request.write]

/-! ## One call -/

/-- The peer that serves a mailbox, which comes to an outcome for each operation and its arguments. -/
def Peer.serving (limit : Nat) (mailbox : String → List Data → Outcome Data) : Peer := fun bytes ↦
  match Frame.read limit bytes with
  | .frame parts _ =>
    match (Replier.start limit).accept () parts with
    | (some (_, request), r) =>
      (r.settle () ((mailbox request.operation request.arguments).observe .null)).writer.written
    | (none, r) => r.writer.written
  | _ => []

section Call

variable {format : Format} {limit : Nat} (room : limit < 2 ^ 32)
  {mailbox : String → List Data → Outcome Data} {operation : String} {arguments : List Data}
  (read : format.RoundTrips (.list arguments))
  (fits : Frame.size (Request.write (idBytes 0) ⟨operation, format, arguments⟩) ≤ limit)
  (travels : Travels format limit (mailbox operation arguments))
include room read fits travels

/-- The peer answers a request with the outcome of the mailbox. -/
theorem Peer.serving_write :
    Peer.serving limit mailbox (Frame.write (Request.write (idBytes 0) ⟨operation, format, arguments⟩)) =
      Frame.write (Answer.write (idBytes 0) format.codec ((mailbox operation arguments).observe .null)) := by
  have framed := Frame.read_write room fits []
  rw [List.append_nil] at framed
  have accepted : (Replier.start limit).accept () (Request.write (idBytes 0) ⟨operation, format, arguments⟩) =
      (some (idBytes 0, ⟨operation, format, arguments⟩),
        (Replier.start limit).await () ⟨idBytes 0, format⟩) :=
    Replier.accept_write read _ _
  simp only [serving, framed, accepted]
  rw [Replier.settle_of_fits (t := ⟨idBytes 0, format⟩) rfl rfl (travels.2 0)]
  rfl

/-- A call of a served mailbox comes to what the mailbox comes to. -/
theorem Peer.call_serving :
    (Peer.serving limit mailbox).call format.codec limit operation arguments =
      (mailbox operation arguments).observe .null := by
  let r : Requester Unit := ⟨format.codec, limit, 1, [(0, ())], false, [], false⟩
  let answer := Answer.write (idBytes 0) format.codec ((mailbox operation arguments).observe .null)
  have written : ((Requester.start format.codec limit).send () operation arguments).2.writeNext =
      (some (Frame.write (Request.write (idBytes 0) ⟨operation, format, arguments⟩)), [], r) :=
    writeNext_of_fits rfl fits
  have framed : Frame.read limit (Frame.write answer) = .frame answer [] := by
    have whole := Frame.read_write room (travels.2 0) []
    rwa [List.append_nil] at whole
  have received : r.receive answer =
      r.settle 0 ((mailbox operation arguments).observe .null) := receive_write rfl travels.roundTrips _
  have answered : Peer.serving limit mailbox
      (Frame.write (Request.write (idBytes 0) ⟨operation, format, arguments⟩)) = Frame.write answer :=
    serving_write room read fits travels
  have nobody : firstResult (((Requester.start format.codec limit).send () operation arguments).1 ++ []) = none :=
    rfl
  simp only [call, written, nobody, answered, awaitAnswer, Reader.next, framed, received]
  rfl

end Call

/-! ## All calls -/

/-- A call of a remote mailbox is one of a local mailbox.  No value is written as zero bytes.  One call of a
served mailbox comes to what the mailbox comes to.  The request of a send arrives as it was sent, and so does
an answer, be it a value or an error.  And however many requests are under way, and in whatever order the
mailbox comes to its outcomes, each promise gets the outcome of its own request. -/
theorem remote_call_eq_local (format : Format) {limit : Nat} (room : limit < 2 ^ 32) :
    (∀ d, format.encode d ≠ []) ∧
    (∀ (mailbox : String → List Data → Outcome Data) (operation : String) (arguments : List Data),
      format.RoundTrips (.list arguments) →
      Frame.size (Request.write (idBytes 0) ⟨operation, format, arguments⟩) ≤ limit →
      Travels format limit (mailbox operation arguments) →
      (Peer.serving limit mailbox).call format.codec limit operation arguments =
        (mailbox operation arguments).observe .null) ∧
    (∀ {κ : Type} (r : Requester κ) (k : κ) (operation : String) (arguments : List Data),
      r.closed = false → r.stopped = false → r.codec = format.codec →
      format.RoundTrips (.list arguments) →
      Frame.size (Request.write (idBytes r.nextId) ⟨operation, format, arguments⟩) ≤ limit →
      ∃ parts, (r.send k operation arguments).2.outgoing = r.outgoing ++ [parts] ∧
        Frame.Arrives limit parts ∧ Request.parse parts = .ok ⟨operation, format, arguments⟩) ∧
    (∀ (id : Bytes) (o : Outcome Data), (∀ d, o = .value d → format.RoundTrips d) →
      Frame.size (Answer.write id format.codec (o.observe .null)) ≤ limit →
      Frame.Arrives limit (Answer.write id format.codec (o.observe .null)) ∧
        Answer.parse format.codec (Answer.write id format.codec (o.observe .null)) = .ok (o.observe .null)) ∧
    ∀ (events : List Exchange.Event) (x : Exchange), (Exchange.start format limit).run? events = some x →
      x.session.sends.length < 2 ^ 64 → (∀ e ∈ events, e.Travels format limit) → x.Faithful := by
  refine ⟨format.encode_ne_nil, fun mailbox operation arguments read fits travels ↦
    Peer.call_serving room read fits travels, fun r k operation arguments going writing same read fits ↦ ?_,
    fun id o read fits ↦ ⟨Frame.arrives_of_fits room fits, Answer.parse_write (roundTrips_observe read) id⟩,
    fun events x run few travels ↦ faithful_of_run room run few travels⟩
  exact ⟨_, outgoing_send going writing same k operation arguments, Frame.arrives_of_fits room fits,
    Request.parse_write read _⟩

/-- Three requests under way: the mailbox comes to the outcome of the last first.  Its outcomes are a value,
an error without text, and none. -/
def crossing : List Exchange.Event :=
  [.client (.draw "f" []), .client (.draw "g" [.int 1]), .client (.draw "f" [.null]),
    .client (.enter 1), .client (.enter 0), .client (.enter 2),
    .client (.handOver 2), .client (.handOver 0), .client (.handOver 1),
    .write, .write, .serve, .write, .serve, .serve,
    .settle 2 .undefined, .settle 0 (.value (.int 3)), .deliver, .settle 1 (.error ""), .deliver, .deliver]

end RemoteCalls

attribute [local instance] Wording.brief

/-- Each promise gets the outcome of its own request. -/
theorem remote_call_eq_local_crossing :
    64 < 2 ^ 32 ∧ ∃ x, (Exchange.start .json 64).run? crossing = some x ∧ x.Faithful ∧
      [0, 1, 2].map x.session.results = [[.error ""], [.ok .null], [.ok (.int 3)]] := by
  have room : 64 < 2 ^ 32 := by decide
  have runs : ((Exchange.start .json 64).run? crossing).map (fun x ↦
      (x.session.sends.length, [0, 1, 2].map x.session.results)) =
        some (3, [[.error ""], [.ok .null], [.ok (.int 3)]]) := by cbv
  obtain ⟨x, run, same⟩ := Option.map_eq_some_iff.mp runs
  obtain ⟨length, results⟩ := Prod.mk.inj same
  have few : x.session.sends.length < 2 ^ 64 := by
    rw [length]
    decide
  have travels : ∀ e ∈ crossing, e.Travels .json 64 := by
    have none : Format.json.RoundTrips (.list []) := by rw [Format.RoundTrips]; cbv
    have one : Format.json.RoundTrips (.list [.int 1]) := by rw [Format.RoundTrips]; cbv
    have null : Format.json.RoundTrips (.list [.null]) := by rw [Format.RoundTrips]; cbv
    have three : Format.json.RoundTrips (.int 3) := by rw [Format.RoundTrips]; cbv
    -- All ids have one size, so the sizes of answers are known whatever the ids.
    have nullSize : (Format.json.encode .null).length = 4 := by cbv
    have threeSize : (Format.json.encode (.int 3)).length = 1 := by cbv
    have idSize (id : UInt64) : (idBytes id).length = 8 := Word.length_bytes 8 id.toNat
    simp [crossing, Event.Travels, Travels, none, one, null, three, Outcome.observe, Answer.write,
      Answer.error, Frame.size, Frame.wordSize, nullSize, threeSize, idSize, Text.encode]
  exact ⟨room, x, run, (remote_call_eq_local .json room).2.2.2.2 crossing x run few travels, results⟩

end Troupe.Net
