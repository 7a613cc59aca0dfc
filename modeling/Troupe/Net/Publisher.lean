import Troupe.Net.Frame

/-!
# Publishers

A publisher writes every value once, into a frame of topic, format and payload, and queues the frame for
each subscriber that asked for a beginning of the topic.  A subscriber asks with one frame whose parts are
such beginnings; the empty one begins every topic.
-/

namespace Troupe.Net

structure Subscription where
  /-- how many subscribers registered before -/
  id : Nat
  /-- the beginnings of the topics it asked for -/
  topics : List String
  /-- the frames queued for it, the oldest first -/
  frames : List Bytes
  /-- somebody takes its frames -/
  live : Bool
deriving Repr

def Subscription.wants (s : Subscription) (topic : String) : Bool :=
  s.topics.any fun beginning ↦ beginning.toList.isPrefixOf topic.toList

structure Publisher where
  codec : Codec
  limit : Nat
  subscriptions : List Subscription
  /-- the number of subscribers registered so far -/
  nextId : Nat

namespace Publisher

def start (codec : Codec) (limit : Nat) : Publisher := ⟨codec, limit, [], 0⟩

def topics? (parts : Parts) : Except TransportError (List String) :=
  match parts.mapM Text.decode? with
  | some topics => .ok topics
  | none => .error (.protocol "Topic is not valid UTF-8")

def register (p : Publisher) (topics : List String) : Nat × Publisher :=
  (p.nextId, { p with
    subscriptions := p.subscriptions ++ [⟨p.nextId, topics, [], true⟩]
    nextId := p.nextId + 1 })

/-- Removes an element and puts the last one in its place. -/
def swapRemove {α : Type} (i : Nat) (xs : List α) : List α :=
  match xs.getLast? with
  | none => []
  | some last => (xs.set i last).dropLast

def unsubscribe (p : Publisher) (id : Nat) : Publisher :=
  match p.subscriptions.findIdx? (·.id == id) with
  | some i => { p with subscriptions := swapRemove i p.subscriptions }
  | none => p

def leave (p : Publisher) (id : Nat) : Publisher :=
  { p with subscriptions := p.subscriptions.map fun s ↦ if s.id = id then { s with live := false } else s }

def frame (codec : Codec) (limit : Nat) (topic : String) (value : Data) : Except TransportError Bytes :=
  match codec.encode value with
  | .error e => .error (.ofCodec e)
  | .ok payload => Frame.encode limit [Text.encode topic, Text.encode codec.name, payload]

/-- What a subscriber becomes when a frame of a topic is published: nothing, if nobody takes the frame. -/
def offer (topic : String) (bytes : Bytes) (s : Subscription) : Option Subscription :=
  if s.wants topic then if s.live then some { s with frames := s.frames ++ [bytes] } else none
  else some s

/-- Publishes a value: the number of subscribers for which it was queued. -/
def publish (p : Publisher) (topic : String) (value : Data) : Except TransportError (Nat × Publisher) :=
  match frame p.codec p.limit topic value with
  | .error e => .error e
  | .ok bytes =>
    .ok (p.subscriptions.countP fun s ↦ s.wants topic && s.live,
      { p with subscriptions := p.subscriptions.filterMap (offer topic bytes) })

end Publisher

end Troupe.Net
