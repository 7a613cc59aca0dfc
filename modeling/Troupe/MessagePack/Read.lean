import Troupe.Binary64.Round
import Troupe.Data.Basic
import Troupe.Word

/-!
# Reading MessagePack

Every form of an integer, a text and a container is read, whether or not it is the smallest.  Binary
strings are read as keys where they hold text, but not as values; extension types are refused.  Of entries
with one key the last counts, and containers may nest as deeply as `MessagePack.maxDepth`.
-/

namespace Troupe.MessagePack

/-- The greatest number of containers around a value. -/
def maxDepth : Nat := 1023

/-- The number of which `n` is the two's complement in `width` bytes. -/
def signed (width n : Nat) : Int :=
  if n < 1 <<< (8 * width - 1) then n else (n : Int) - (1 <<< (8 * width) : Nat)

/-- What the first byte of a value announces. -/
inductive Form where
  | complete (d : Data)
  | unsigned (width : Nat)
  | signed (width : Nat)
  | single
  | double
  | text (length : Nat)
  /-- a text whose length follows in a number of bytes -/
  | textOf (width : Nat)
  /-- a binary string whose length follows in a number of bytes -/
  | binaryOf (width : Nat)
  | list (length : Nat)
  /-- a list whose length follows in a number of bytes -/
  | listOf (width : Nat)
  | map (length : Nat)
  /-- a map whose length follows in a number of bytes -/
  | mapOf (width : Nat)
  | unknown

def Form.ofByte (byte : UInt8) : Form :=
  let b := byte.toNat
  if b < 0x80 then .complete (.int (Int64.ofNat b))
  else if b < 0x90 then .map (b - 0x80)
  else if b < 0xA0 then .list (b - 0x90)
  else if b < 0xC0 then .text (b - 0xA0)
  else if 0xE0 ≤ b then .complete (.int (Int64.ofInt ((b : Int) - 0x100)))
  else
    match b with
    | 0xC0 => .complete .null
    | 0xC2 => .complete (.bool false)
    | 0xC3 => .complete (.bool true)
    | 0xC4 => .binaryOf 1
    | 0xC5 => .binaryOf 2
    | 0xC6 => .binaryOf 4
    | 0xCA => .single
    | 0xCB => .double
    | 0xCC => .unsigned 1
    | 0xCD => .unsigned 2
    | 0xCE => .unsigned 4
    | 0xCF => .unsigned 8
    | 0xD0 => .signed 1
    | 0xD1 => .signed 2
    | 0xD2 => .signed 4
    | 0xD3 => .signed 8
    | 0xD9 => .textOf 1
    | 0xDA => .textOf 2
    | 0xDB => .textOf 4
    | 0xDC => .listOf 2
    | 0xDD => .listOf 4
    | 0xDE => .mapOf 2
    | 0xDF => .mapOf 4
    | _ => .unknown

def textOf (length : Nat) (bytes : Bytes) : Option (String × Bytes) := do
  let (head, rest) ← Word.take? length bytes
  let s ← Text.decode? head
  some (s, rest)

/-- A text whose length comes first in a number of bytes. -/
def sizedText (width : Nat) (bytes : Bytes) : Option (String × Bytes) := do
  let (length, rest) ← Word.read? width bytes
  textOf length rest

/-- A key: a text, or a binary string that holds one. -/
def key : Bytes → Option (String × Bytes)
  | [] => none
  | first :: rest =>
    match Form.ofByte first with
    | .text length => textOf length rest
    | .textOf width => sizedText width rest
    | .binaryOf width => sizedText width rest
    | _ => none

mutual

/-- Reads one value inside `depth` more containers at most. -/
def value : Nat → Nat → Bytes → Option (Data × Bytes)
  | 0, _, _ => none
  | _, _, [] => none
  | fuel + 1, depth, first :: rest =>
    match Form.ofByte first with
    | .complete d => some (d, rest)
    | .unsigned width => (Word.read? width rest).map fun (n, rest) ↦ (.ofUInt64 (UInt64.ofNat n), rest)
    | .signed width => (Word.read? width rest).map fun (n, rest) ↦ (.int (Int64.ofInt (signed width n)), rest)
    | .single => (Word.read? 4 rest).map fun (n, rest) ↦ (.float (Binary64.ofSingle (UInt32.ofNat n)), rest)
    | .double => (Word.read? 8 rest).map fun (n, rest) ↦ (.float ⟨UInt64.ofNat n⟩, rest)
    | .text length => (textOf length rest).map fun (s, rest) ↦ (.string s, rest)
    | .textOf width => (sizedText width rest).map fun (s, rest) ↦ (.string s, rest)
    | .list length => list fuel depth length rest
    | .listOf width => (Word.read? width rest).bind fun (length, rest) ↦ list fuel depth length rest
    | .map length => map fuel depth length rest
    | .mapOf width => (Word.read? width rest).bind fun (length, rest) ↦ map fuel depth length rest
    | .binaryOf _ => none
    | .unknown => none

def list : Nat → Nat → Nat → Bytes → Option (Data × Bytes)
  | 0, _, _, _ => none
  | _, 0, _, _ => none
  | fuel + 1, depth + 1, length, bytes =>
    (items fuel depth length bytes).map fun (ds, rest) ↦ (.list ds, rest)

def map : Nat → Nat → Nat → Bytes → Option (Data × Bytes)
  | 0, _, _, _ => none
  | _, 0, _, _ => none
  | fuel + 1, depth + 1, length, bytes =>
    (entries fuel depth length bytes []).map fun (es, rest) ↦ (.map es, rest)

def items : Nat → Nat → Nat → Bytes → Option (List Data × Bytes)
  | 0, _, _, _ => none
  | _, _, 0, bytes => some ([], bytes)
  | fuel + 1, depth, length + 1, bytes => do
    let (d, rest) ← value fuel depth bytes
    let (ds, rest) ← items fuel depth length rest
    some (d :: ds, rest)

/-- Reads a number of entries into those read so far. -/
def entries : Nat → Nat → Nat → Bytes → Entries Data → Option (Entries Data × Bytes)
  | 0, _, _, _, _ => none
  | _, _, 0, bytes, es => some (es, bytes)
  | fuel + 1, depth, length + 1, bytes, es => do
    let (k, rest) ← key bytes
    let (d, rest) ← value fuel depth rest
    entries fuel depth length rest (Entries.insert k d es)

end

/-- The value at the start of the bytes, and those after it.  Every four steps take a byte. -/
def readFirst? (bytes : Bytes) : Option (Data × Bytes) := value (4 * bytes.length + 4) maxDepth bytes

/-- The value at the start of the bytes; those after it are not looked at. -/
def read? (bytes : Bytes) : Option Data := (readFirst? bytes).map Prod.fst

end Troupe.MessagePack
