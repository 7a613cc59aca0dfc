import Troupe.Json.Read
import Troupe.Json.Write
import Troupe.MessagePack.Read
import Troupe.MessagePack.Write
import Troupe.Yaml.Read
import Troupe.Yaml.Write

/-!
# Formats and codecs

The byte formats in which data travels, found by their names.  Every tree can be written in every format;
reading fails on bytes that are no document of the format.  A codec is a format as others use it: it has a
name, and its writing may fail as well.

What is said of bytes that are no document is up to whoever reads them, and so it is a parameter (`Wording`).
-/

namespace Troupe

inductive Format where
  | json | yaml | msgpack
deriving DecidableEq, Repr

/-- The words in which those who read the formats refuse bytes. -/
class Wording where
  refusal : Format → Bytes → String

@[reducible] def Wording.brief : Wording := ⟨fun _ _ ↦ "malformed document"⟩

inductive CodecError where
  | unknownFormat (name : String)
  | encode (format detail : String)
  | decode (format detail : String)
deriving DecidableEq, Repr

/-- A byte encoding of data, with the name under which it is known. -/
structure Codec where
  name : String
  encode : Data → Except CodecError Bytes
  decode : Bytes → Except CodecError Data

namespace Format

def name : Format → String
  | .json => "json"
  | .yaml => "yaml"
  | .msgpack => "msgpack"

def all : List Format := [.json, .yaml, .msgpack]

def ofName? (name : String) : Option Format := all.find? fun f ↦ f.name == name

def require (name : String) : Except CodecError Format :=
  match ofName? name with
  | some f => .ok f
  | none => .error (.unknownFormat name)

def encode : Format → Data → Bytes
  | .json, d => Text.encode (Json.write d)
  | .yaml, d => Text.encode (Yaml.write d)
  | .msgpack, d => MessagePack.write d

/-- The tree that bytes hold, if they are a document of the format. -/
def read? : Format → Bytes → Option Data
  | .json, bytes => (Text.decode? bytes).bind Json.read?
  | .yaml, bytes => (Text.decode? bytes).bind Yaml.read?
  | .msgpack, bytes => MessagePack.read? bytes

@[simp] theorem ofName?_name (f : Format) : ofName? f.name = some f := by
  cases f <;> rfl

section Decoding

variable [Wording]

def malformed (f : Format) (bytes : Bytes) : CodecError := .decode f.name (Wording.refusal f bytes)

def decode (f : Format) (bytes : Bytes) : Except CodecError Data :=
  match f.read? bytes with
  | some d => .ok d
  | none => .error (f.malformed bytes)

/-- The format as a codec.  No tree is refused. -/
def codec (f : Format) : Codec := ⟨f.name, fun d ↦ .ok (f.encode d), f.decode⟩

@[simp] theorem codec_name (f : Format) : f.codec.name = f.name := rfl

@[simp] theorem codec_encode (f : Format) (d : Data) : f.codec.encode d = .ok (f.encode d) := rfl

@[simp] theorem codec_decode (f : Format) (bytes : Bytes) : f.codec.decode bytes = f.decode bytes := rfl

theorem decode_eq_ok_iff {f : Format} {bytes : Bytes} {d : Data} :
    f.decode bytes = .ok d ↔ f.read? bytes = some d := by
  rw [decode]
  cases f.read? bytes <;> simp

theorem decode_eq_error_iff {f : Format} {bytes : Bytes} {e : CodecError} :
    f.decode bytes = .error e ↔ f.read? bytes = none ∧ e = f.malformed bytes := by
  rw [decode]
  cases f.read? bytes <;> simp [eq_comm]

end Decoding

end Format

namespace CodecError

def name : CodecError → String
  | .unknownFormat _ => "UnknownFormat"
  | .encode _ _ => "Encode"
  | .decode _ _ => "Decode"

def message : CodecError → String
  | .unknownFormat name => "unknown format " ++ name
  | .encode format detail => format ++ " encode failed: " ++ detail
  | .decode format detail => format ++ " decode failed: " ++ detail

def detail? : CodecError → Option String
  | .unknownFormat _ => none
  | .encode _ detail => some detail
  | .decode _ detail => some detail

end CodecError

/-- A tree that must be a list or a map. -/
inductive Container where
  | list | map
deriving DecidableEq, Repr

namespace Container

def kind : Container → Kind
  | .list => .list
  | .map => .map

/-- Reads a JSON text that must hold a container of one kind.  The kind is checked before the text after
the value is looked at. -/
def ofJson [Wording] (c : Container) (s : String) : Except String Data :=
  let malformed := (Format.json.malformed (Text.encode s)).message
  match Json.readFirst? s.toList with
  | none => .error malformed
  | some (d, rest) =>
    if d.kind ≠ c.kind then .error ("expected a " ++ c.kind.name ++ " but got " ++ d.kind.name)
    else if Json.skipBlanks rest = [] then .ok d
    else .error malformed

end Container

end Troupe
