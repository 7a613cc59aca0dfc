import Troupe.Data.Basic
import Troupe.Word

/-!
# Writing MessagePack

Every integer takes the smallest form that holds it, an unsigned one unless it is negative; texts, lists
and maps take the smallest header for their length; floating-point numbers take eight bytes.
-/

namespace Troupe.MessagePack

def natural (n : Nat) : Bytes :=
  if n < 0x80 then [UInt8.ofNat n]
  else if n < 0x100 then 0xCC :: Word.bytes 1 n
  else if n < 0x10000 then 0xCD :: Word.bytes 2 n
  else if n < 0x100000000 then 0xCE :: Word.bytes 4 n
  else 0xCF :: Word.bytes 8 n

/-- An integer.  A negative one is written as the word of its two's complement. -/
def integer (i : Int) : Bytes :=
  if 0 ≤ i then natural i.toNat
  else if -0x20 ≤ i then [UInt8.ofNat (i + 0x100).toNat]
  else if -0x80 ≤ i then 0xD0 :: Word.bytes 1 (i + 0x100).toNat
  else if -0x8000 ≤ i then 0xD1 :: Word.bytes 2 (i + 0x10000).toNat
  else if -0x80000000 ≤ i then 0xD2 :: Word.bytes 4 (i + 0x100000000).toNat
  else 0xD3 :: Word.bytes 8 (i + 0x10000000000000000).toNat

def textHeader (n : Nat) : Bytes :=
  if n < 0x20 then [UInt8.ofNat (0xA0 + n)]
  else if n < 0x100 then 0xD9 :: Word.bytes 1 n
  else if n < 0x10000 then 0xDA :: Word.bytes 2 n
  else 0xDB :: Word.bytes 4 n

def text (s : String) : Bytes := textHeader (Text.encode s).length ++ Text.encode s

def listHeader (n : Nat) : Bytes :=
  if n < 0x10 then [UInt8.ofNat (0x90 + n)]
  else if n < 0x10000 then 0xDC :: Word.bytes 2 n
  else 0xDD :: Word.bytes 4 n

def mapHeader (n : Nat) : Bytes :=
  if n < 0x10 then [UInt8.ofNat (0x80 + n)]
  else if n < 0x10000 then 0xDE :: Word.bytes 2 n
  else 0xDF :: Word.bytes 4 n

mutual

def write : Data → Bytes
  | .null => [0xC0]
  | .bool b => if b then [0xC3] else [0xC2]
  | .int i => integer i.toInt
  | .uint u => natural u.toNat
  | .float x => 0xCB :: Word.bytes 8 x.bits.toNat
  | .string s => text s
  | .list items => listHeader items.length ++ writeItems items
  | .map entries => mapHeader entries.length ++ writeEntries entries

def writeItems : List Data → Bytes
  | [] => []
  | d :: rest => write d ++ writeItems rest

def writeEntries : List (String × Data) → Bytes
  | [] => []
  | (k, d) :: rest => text k ++ write d ++ writeEntries rest

end

end Troupe.MessagePack
