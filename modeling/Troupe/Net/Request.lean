import Troupe.Data.Access
import Troupe.Net.Frame
import Troupe.Text.Lossy

/-!
# Requests and answers

A request travels as the four parts id, operation, format and arguments, and its answer as the three parts
id, value and error.  The id is returned byte for byte.  Either the value or the error of an answer is empty:
no format writes a value as zero bytes, so an empty value always means an error, even one without text.
-/

namespace Troupe.Net

/-- What a request asks for.  The format is that of the arguments and of the answer. -/
structure Request where
  operation : String
  format : Format
  arguments : List Data
deriving Repr

inductive RequestError where
  | parts (count : Nat)
  | operation
  | format
  | codec (e : CodecError)
  | notList (kind : Kind)
deriving DecidableEq, Repr

def RequestError.message : RequestError → String
  | .parts count => "expected 4 request parts but " ++ toString count ++ " were given"
  | .operation => "operation name is not valid UTF-8"
  | .format => "format name is not valid UTF-8"
  | .codec e => e.message
  | .notList kind => "arguments must be a List, not " ++ kind.name

namespace Request

def parts (id : Bytes) (operation format : String) (payload : Bytes) : Parts :=
  [id, Text.encode operation, Text.encode format, payload]

def write (id : Bytes) (r : Request) : Parts :=
  parts id r.operation r.format.name (r.format.encode (.list r.arguments))

def arguments? : Data → Except RequestError (List Data)
  | .list ds => .ok ds
  | d => .error (.notList d.kind)

def parse [Wording] : Parts → Except RequestError Request
  | [_, operation, format, arguments] =>
    match Text.decode? operation, Text.decode? format with
    | none, _ => .error .operation
    | _, none => .error .format
    | some operation, some name =>
      match (Format.require name).bind fun f ↦ (f.decode arguments).map fun d ↦ (f, d) with
      | .error e => .error (.codec e)
      | .ok (format, d) => (arguments? d).map fun arguments ↦ ⟨operation, format, arguments⟩
  | parts => .error (.parts parts.length)

end Request

namespace Answer

def error (id : Bytes) (message : String) : Parts := [id, [], Text.encode message]

/-- The parts of an answer.  A value that cannot be written is answered with the error that it is. -/
def write (id : Bytes) (codec : Codec) : Except String Data → Parts
  | .ok d =>
    match codec.encode d with
    | .ok value => [id, value, []]
    | .error e => error id e.message
  | .error message => error id message

def parse (codec : Codec) : Parts → Except TransportError (Except String Data)
  | [_, [], message] => .ok (.error (Text.decodeLossy message))
  | [_, value, _] =>
    match codec.decode value with
    | .ok d => .ok (.ok d)
    | .error e => .error (.ofCodec e)
  | parts => .error (.protocol ("expected 3 reply parts but " ++ toString parts.length ++ " were given"))

/-- The result that the one who asked gets: errors of the frame are errors of the call. -/
def result (codec : Codec) (parts : Parts) : Except String Data :=
  match parse codec parts with
  | .ok r => r
  | .error e => .error e.message

end Answer

end Troupe.Net
