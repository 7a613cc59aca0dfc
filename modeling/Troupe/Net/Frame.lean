import Troupe.Net.Error
import Troupe.Word

/-!
# Frames

A frame carries a list of parts: a word with their number, then each part behind a word with its length.
Words have 32 bits, so a number or length beyond that does not survive.  A limit bounds the size of a whole
frame, its words included; frames over the limit are neither written nor read.
-/

namespace Troupe.Net

abbrev Parts := List Bytes

namespace Frame

def wordSize : Nat := 4

def defaultLimit : Nat := 16 * 1024 * 1024

def size : Parts → Nat
  | [] => wordSize
  | part :: rest => wordSize + part.length + size rest

def writePart (part : Bytes) : Bytes := Word.bytes wordSize part.length ++ part

def write (parts : Parts) : Bytes := Word.bytes wordSize parts.length ++ parts.flatMap writePart

def oversized (size limit : Nat) : TransportError :=
  .protocol ("Message size " ++ toString size ++ " exceeds maximum " ++ toString limit)

def encode (limit : Nat) (parts : Parts) : Except TransportError Bytes :=
  if limit < size parts then .error (oversized (size parts) limit) else .ok (write parts)

/-- What reading from a stream of bytes came to. -/
inductive Reading where
  /-- a frame, and the bytes after it -/
  | frame (parts : Parts) (rest : Bytes)
  /-- the end of the stream, before a frame -/
  | ended
  /-- an error, and the bytes after those that were read -/
  | failed (e : TransportError) (rest : Bytes)
deriving DecidableEq, Repr

/-- The bytes that are left to be read.  The end of the stream leaves none. -/
def Reading.rest : Reading → Bytes
  | .frame _ rest | .failed _ rest => rest
  | .ended => []

/-- The error of a stream that ends inside a frame. -/
def truncated (what : String) : TransportError :=
  .network ("Failed to read " ++ what) (some "early eof")

/-- Reads `count` more parts of a frame that has `size` bytes so far, after the parts `read` in reverse.  A
stream that ends early has been read to its end. -/
def readParts (limit : Nat) : Nat → Nat → List Bytes → Bytes → Reading
  | 0, _, read, bytes => .frame read.reverse bytes
  | count + 1, size, read, bytes =>
    match Word.read? wordSize bytes with
    | none => .failed (truncated "part length") []
    | some (length, bytes) =>
      if limit < size + length then .failed (oversized (size + length) limit) bytes
      else
        match Word.take? length bytes with
        | none => .failed (truncated "message part") []
        | some (part, bytes) => readParts limit count (size + length) (part :: read) bytes

/-- Reads a frame.  A stream that ends inside the number of parts counts as ended. -/
def read (limit : Nat) (bytes : Bytes) : Reading :=
  match Word.read? wordSize bytes with
  | none => .ended
  | some (count, bytes) =>
    let size := wordSize + count * wordSize
    if limit < size then
      .failed (.protocol ("Frame of " ++ toString count ++ " parts exceeds maximum size "
        ++ toString limit)) bytes
    else readParts limit count size [] bytes

theorem length_write (parts : Parts) : (write parts).length = size parts := by
  have body (ps : Parts) : wordSize + (ps.flatMap writePart).length = size ps := by
    induction ps with
    | nil => rfl
    | cons p rest ih =>
      simp only [List.flatMap_cons, List.length_append, size, ← ih, writePart, Word.length_bytes]
      omega
  rw [write, List.length_append, Word.length_bytes]
  exact body parts

theorem encode_eq_ok_iff {limit : Nat} {parts : Parts} {bytes : Bytes} :
    encode limit parts = .ok bytes ↔ size parts ≤ limit ∧ write parts = bytes := by
  simp only [encode]
  split
  · rename_i large
    constructor
    · intro h
      cases h
    · intro h
      omega
  · rename_i within
    simp only [Except.ok.injEq]
    exact ⟨fun h ↦ ⟨by omega, h⟩, fun h ↦ h.2⟩

end Frame

structure Reader where
  limit : Nat
  /-- the bytes not yet read -/
  stream : Bytes
  /-- the number of bytes of all frames read -/
  received : Nat
deriving Repr

/-- Reads the next frame.  The bytes that were read are gone from the stream, also if they were no frame. -/
def Reader.next (r : Reader) : Frame.Reading × Reader :=
  match Frame.read r.limit r.stream with
  | .frame parts rest =>
    (.frame parts rest, { r with stream := rest, received := r.received + Frame.size parts })
  | reading => (reading, { r with stream := reading.rest })

structure Writer where
  limit : Nat
  written : Bytes
deriving Repr

namespace Writer

def sent (w : Writer) : Nat := w.written.length

def writeEncoded (w : Writer) (bytes : Bytes) : Writer := { w with written := w.written ++ bytes }

/-- Writes a frame; one over the limit leaves the connection alone. -/
def write (w : Writer) (parts : Parts) : Except TransportError Writer :=
  (Frame.encode w.limit parts).map w.writeEncoded

end Writer

end Troupe.Net
