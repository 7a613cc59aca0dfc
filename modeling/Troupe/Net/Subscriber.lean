import Troupe.Actor.Dispatch
import Troupe.Net.Frame

/-!
# Subscribers

The receiving side of a feed.  Every frame that holds a publication is delivered, one at a time and in the
order of arrival: deliveries are the jobs of a dispatch queue, and all of them write.  Frames that hold none
are skipped.
-/

namespace Troupe.Net

structure Publication where
  topic : String
  value : Data
deriving Repr

inductive PublicationError where
  | parts (count : Nat)
  | topic
  | format
  | codec (e : CodecError)
deriving DecidableEq, Repr

def PublicationError.message : PublicationError → String
  | .parts count => "expected 3 publication parts but " ++ toString count ++ " were given"
  | .topic => "topic is not valid UTF-8"
  | .format => "format name is not valid UTF-8"
  | .codec e => e.message

def Publication.parse [Wording] : Parts → Except PublicationError Publication
  | [topic, format, payload] =>
    match Text.decode? topic, Text.decode? format with
    | none, _ => .error .topic
    | _, none => .error .format
    | some topic, some name =>
      match (Format.require name).bind fun f ↦ f.decode payload with
      | .error e => .error (.codec e)
      | .ok value => .ok ⟨topic, value⟩
  | parts => .error (.parts parts.length)

abbrev FeedEnd := Except String Unit

structure Subscriber where
  reader : Reader
  /-- the deliveries that wait or run -/
  deliveries : Dispatch Publication
  /-- the deliveries that may run, the oldest first -/
  ready : List (Job Publication)
  /-- how the feed ended, if it did -/
  finished : Option FeedEnd

namespace Subscriber

def start (limit : Nat) (stream : Bytes) : Subscriber := ⟨⟨limit, stream, 0⟩, .empty, [], none⟩

def deliver (s : Subscriber) (p : Publication) : Subscriber :=
  let (admitted, deliveries) := s.deliveries.submit ⟨.writer, p⟩
  { s with deliveries, ready := s.ready ++ admitted }

def listen [Wording] (s : Subscriber) : Subscriber :=
  match s.reader.next with
  | (.frame parts _, reader) =>
    match Publication.parse parts with
    | .ok p => { s with reader }.deliver p
    | .error _ => { s with reader }
  | (.ended, reader) => { s with reader, finished := some (.ok ()) }
  | (.failed e _, reader) => { s with reader, finished := some (.error e.message) }

def complete (s : Subscriber) : Subscriber :=
  let (admitted, deliveries) := s.deliveries.complete .writer
  { s with deliveries, ready := s.ready ++ admitted }

def start? (s : Subscriber) : Option (Publication × Subscriber) :=
  match s.ready with
  | [] => none
  | job :: rest => some (job.work, { s with ready := rest })

end Subscriber

end Troupe.Net
