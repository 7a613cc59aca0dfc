import Troupe.Net.Replier
import Troupe.System.Rehearsal

/-!
# Services

A mailbox that is served on a connection.  Every request of the stream becomes one message to the mailbox,
and its answer is written as soon as the promise is settled.  When the requests end, the answers that are
still to come are written before the connection is given up.
-/

namespace Troupe.Net

variable {ι σ : Type} [Wording]

namespace Replier

/-- Takes the parts of a frame: a request becomes a message to the mailbox. -/
def take (r : Replier PromiseRef) (mailbox : Mailbox) (parts : Parts) (sys : System ι σ) :
    Replier PromiseRef × System ι σ :=
  match Incoming.ofParts parts with
  | .ignored => (r, sys)
  | .malformed id e => (r.reply (Answer.error id e.message), sys)
  | .request id request =>
    let (arguments, memory) := sys.memory.onHeap (Heap.allocItems request.arguments)
    let (p, sys) := { sys with memory }.send ⟨mailbox, request.operation, arguments⟩
    (r.await p ⟨id, request.format⟩, sys)

def answer (sys : System ι σ) (r : Replier PromiseRef) (p : PromiseRef) : Replier PromiseRef :=
  match (sys.promise p).result? with
  | some result => r.settle p (result.map sys.memory.heap.read)
  | none => r

def answerAll (r : Replier PromiseRef) (sys : System ι σ) : Replier PromiseRef :=
  (r.outstanding.map Prod.fst).foldl (answer sys) r

end Replier

/-- Serves a mailbox to the requests of a stream, at most `fuel` of them; the workers rest after each. -/
def serveFrom (mailbox : Mailbox) :
    Nat → Reader → Replier PromiseRef → Rehearsal ι σ → Replier PromiseRef × Rehearsal ι σ
  | 0, _, r, run => (r, run)
  | fuel + 1, reader, r, run =>
    match reader.next with
    | (.frame parts _, reader) =>
      let (r, system) := r.take mailbox parts run.system
      let run := { run with system }.rest
      serveFrom mailbox fuel reader (r.answerAll run.system) run
    | _ => (r, run)

/-- Serves a mailbox on one connection: the bytes that are answered to those of the stream. -/
def serve (limit : Nat) (mailbox : Mailbox) (stream : Bytes) (run : Rehearsal ι σ) :
    Bytes × Rehearsal ι σ :=
  let (r, run) := serveFrom mailbox (stream.length + 1) ⟨limit, stream, 0⟩ (.start limit) run
  (r.writer.written, run)

end Troupe.Net
