import Troupe.Net.Request

/-!
# Repliers

The serving side of one connection.  Every frame that holds a request becomes a message, and a ticket keeps
what is needed to answer it; every other frame that has parts is answered with an error at once.  Answers
are written in the order in which they become known, whatever the order of the requests.
-/

namespace Troupe.Net

inductive Incoming where
  /-- nothing: the frame has no parts, so there is no id to answer to -/
  | ignored
  | malformed (id : Bytes) (e : RequestError)
  | request (id : Bytes) (r : Request)
deriving Repr

def Incoming.ofParts [Wording] : Parts → Incoming
  | [] => .ignored
  | id :: rest =>
    match Request.parse (id :: rest) with
    | .ok r => .request id r
    | .error e => .malformed id e

/-- What is needed to answer a request. -/
structure Ticket where
  id : Bytes
  format : Format
deriving DecidableEq, Repr

/-- The serving side of a connection; `κ` names the messages that were sent on. -/
structure Replier (κ : Type) where
  /-- the requests that are not answered yet -/
  outstanding : List (κ × Ticket)
  writer : Writer
  /-- an answer could not be written, and no further one is -/
  broken : Bool
deriving Repr

namespace Replier

variable {κ : Type}

def start (limit : Nat) : Replier κ := ⟨[], ⟨limit, []⟩, false⟩

/-- Writes an answer.  The first one that is too large ends all writing. -/
def reply (r : Replier κ) (parts : Parts) : Replier κ :=
  if r.broken then r
  else
    match r.writer.write parts with
    | .ok writer => { r with writer }
    | .error _ => { r with broken := true }

/-- Keeps the ticket of a request that was sent on as the message `k`. -/
def await (r : Replier κ) (k : κ) (ticket : Ticket) : Replier κ :=
  { r with outstanding := r.outstanding ++ [(k, ticket)] }

def settle [Wording] [DecidableEq κ] (r : Replier κ) (k : κ) (result : Except String Data) : Replier κ :=
  match r.outstanding.find? fun o ↦ o.1 = k with
  | none => r
  | some (_, ticket) =>
    { r with outstanding := r.outstanding.filter fun o ↦ o.1 ≠ k }.reply
      (Answer.write ticket.id ticket.format.codec result)

end Replier

end Troupe.Net
