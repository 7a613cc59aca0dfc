import Troupe.Codec

/-!
# What can go wrong on a connection

The errors of transports.  Those of the peer and of the network may pass, so that it makes sense to try
again; those of what was sent will not.
-/

namespace Troupe

inductive TransportError where
  | network (message : String) (cause : Option String)
  | connection (message : String) (remote : Option String) (cause : Option String)
  | protocol (message : String)
  | codec (message : String) (cause : Option CodecError)
  | timeout (operation : String) (milliseconds : Nat)
  | closed (message : String)
  | io (message : String)
deriving DecidableEq, Repr

namespace TransportError

def ofCodec (e : CodecError) : TransportError := .codec e.message (some e)

def message : TransportError → String
  | .network m _ => "Network error: " ++ m
  | .connection m remote _ =>
    let address := match remote with
      | none => "None"
      | some a => "Some(" ++ a ++ ")"
    "Connection error: " ++ m ++ " (remote: " ++ address ++ ")"
  | .protocol m => "Protocol error: " ++ m
  | .codec m _ => "Codec error: " ++ m
  | .timeout operation ms =>
    "Timeout error: " ++ operation ++ " exceeded " ++ toString ms ++ "ms"
  | .closed m => "Connection closed: " ++ m
  | .io m => "I/O error: " ++ m

def cause? : TransportError → Option String
  | .network _ c | .connection _ _ c => c
  | .codec _ c => c.map CodecError.message
  | .io m => some m
  | .protocol _ | .timeout _ _ | .closed _ => none

def category : TransportError → String
  | .network _ _ => "network"
  | .connection _ _ _ => "connection"
  | .protocol _ => "protocol"
  | .codec _ _ => "codec"
  | .timeout _ _ => "timeout"
  | .closed _ => "closed"
  | .io _ => "io"

/-- The same operation may succeed when it is tried again. -/
def isRetryable : TransportError → Bool
  | .protocol _ | .codec _ _ => false
  | _ => true

end TransportError

end Troupe
