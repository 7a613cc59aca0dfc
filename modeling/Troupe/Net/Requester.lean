import Troupe.Net.Error
import Troupe.Net.Request

/-!
# Requesters

The asking side of one connection.  Every request gets an id of its own and waits in `pending` until its
answer arrives, it turns out too large, or the connection is lost; whatever comes first settles it.  The
steps are those between which others may act: a send registers and then hands over, one task writes the
requests that were handed over, and another reads answers.

`κ` names whoever waits for an answer.  A step tells which of them are settled, and with what.

A call is one request to a peer and the wait for its answer, over a connection of its own.
-/

namespace Troupe.Net

/-- Those whose wait is over, with their results. -/
abbrev Settlements (κ : Type) := List (κ × Except String Data)

structure Requester (κ : Type) where
  codec : Codec
  limit : Nat
  nextId : UInt64
  /-- the requests that wait for an answer, by id -/
  pending : List (UInt64 × κ)
  /-- the connection is lost, and nobody waits any more -/
  closed : Bool
  /-- the requests handed over and not yet written, the oldest first -/
  outgoing : List Parts
  /-- nobody writes requests any more -/
  stopped : Bool

namespace Requester

variable {κ : Type}

def start (codec : Codec) (limit : Nat) : Requester κ := ⟨codec, limit, 0, [], false, [], false⟩

/-- The result of requests that a lost connection leaves without an answer. -/
def lost : Except String Data := .error "connection closed"

def idBytes (id : UInt64) : Bytes := Word.bytes 8 id.toNat

/-- The id that the first part of a frame holds, if it has the right length. -/
def frameId? : Parts → Option UInt64
  | id :: _ => if id.length = 8 then some (UInt64.ofNat (Word.value id)) else none
  | [] => none

/-- Takes an id for a request, and registers who waits for it unless the connection is lost. -/
def register (r : Requester κ) (k : κ) : UInt64 × Settlements κ × Requester κ :=
  let r' := { r with nextId := r.nextId + 1 }
  if r.closed then (r.nextId, [(k, lost)], r')
  else (r.nextId, [], { r' with pending := r.pending ++ [(r.nextId, k)] })

def remove (r : Requester κ) (id : UInt64) : Option κ × Requester κ :=
  ((r.pending.find? fun p ↦ p.1 = id).map Prod.snd,
    { r with pending := r.pending.filter fun p ↦ p.1 ≠ id })

def settle (r : Requester κ) (id : UInt64) (result : Except String Data) :
    Settlements κ × Requester κ :=
  let (k, r) := r.remove id
  (k.toList.map fun k ↦ (k, result), r)

/-- Hands a registered request over to the task that writes, with the bytes of its arguments. -/
def handOver (r : Requester κ) (id : UInt64) (operation : String) (payload : Bytes) :
    Settlements κ × Requester κ :=
  if r.stopped then r.settle id lost
  else ([], { r with
    outgoing := r.outgoing ++ [Request.parts (idBytes id) operation r.codec.name payload] })

/-- Sends a request: registers it and hands it over, if the connection is not lost.  One whose arguments
cannot be written fails at once, and takes no id. -/
def send (r : Requester κ) (k : κ) (operation : String) (arguments : List Data) :
    Settlements κ × Requester κ :=
  match r.codec.encode (.list arguments) with
  | .error e => ([(k, .error e.message)], r)
  | .ok payload =>
    match r.register k with
    | (id, [], r) => r.handOver id operation payload
    | (_, settled, r) => (settled, r)

/-- Writes the oldest request handed over: the frame that leaves, if it is not too large.  A request that
is too large fails alone. -/
def writeNext (r : Requester κ) : Option Bytes × Settlements κ × Requester κ :=
  match r.outgoing with
  | [] => (none, [], r)
  | parts :: rest =>
    let r := { r with outgoing := rest }
    match Frame.encode r.limit parts with
    | .ok bytes => (some bytes, [], r)
    | .error e =>
      match frameId? parts with
      | none => (none, [], r)
      | some id =>
        let (settled, r) := r.settle id (.error e.message)
        (none, settled, r)

/-- Takes the parts of a frame that arrived.  Frames without a usable id, or with that of nobody who waits,
settle nothing. -/
def receive (r : Requester κ) (parts : Parts) : Settlements κ × Requester κ :=
  match frameId? parts with
  | none => ([], r)
  | some id => r.settle id (Answer.result r.codec parts)

/-- Gives the connection up: nobody waits any more, and later requests fail at once. -/
def close (r : Requester κ) : Settlements κ × Requester κ :=
  (r.pending.map fun p ↦ (p.2, lost), { r with pending := [], closed := true })

def stop (r : Requester κ) : Settlements κ × Requester κ :=
  let (settled, r) := r.close
  (settled, { r with outgoing := [], stopped := true })

end Requester

/-! ## Calls -/

/-- What listens at an address: the bytes that it answers to those that it is sent. -/
abbrev Peer := Bytes → Bytes

/-- What can be reached: the peer at an address, or the report on the attempt to connect to it. -/
abbrev Network := String → Except String Peer

namespace Network

/-- The network in which nothing can be reached. -/
def unreachable : Network := fun _ ↦ .error "Network is unreachable (os error 101)"

def connect (n : Network) (address : String) : Except TransportError Peer :=
  match n address with
  | .ok peer => .ok peer
  | .error report => .error (.connection "Failed to connect" none (some report))

end Network

def firstResult {κ : Type} (settled : Settlements κ) : Option (Except String Data) :=
  settled.head?.map Prod.snd

/-- Takes the frames that arrive, at most `fuel` of them, until the request is settled.  The end of the
stream loses the connection. -/
def awaitAnswer : Nat → Requester Unit → Reader → Except String Data
  | 0, _, _ => Requester.lost
  | fuel + 1, r, reader =>
    match reader.next with
    | (.frame parts _, reader) =>
      let (settled, r) := r.receive parts
      (firstResult settled).getD (awaitAnswer fuel r reader)
    | _ => (firstResult r.close.1).getD Requester.lost

/-- Asks a peer for an operation.  A request that is too large is not sent. -/
def Peer.call (peer : Peer) (codec : Codec) (limit : Nat) (operation : String)
    (arguments : List Data) : Except String Data :=
  let (early, r) := (Requester.start codec limit).send () operation arguments
  let (frame, late, r) := r.writeNext
  match firstResult (early ++ late), frame with
  | some result, _ => result
  | none, none => Requester.lost
  | none, some bytes =>
    let stream := peer bytes
    awaitAnswer (stream.length + 1) r ⟨limit, stream, 0⟩

end Troupe.Net
