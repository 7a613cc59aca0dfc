import Troupe.Text.Utf8

/-!
# Reading damaged texts

Bytes that are nearly UTF-8 are read as far as possible: every longest piece that starts a character and
cannot be completed, and every byte that starts none, becomes one replacement character.
-/

namespace Troupe.Text

/-- The character that stands for bytes that are none. -/
def replacement : Char := '\uFFFD'

/-- The number of bytes after a first byte, and the bounds of the first of them. -/
def shape? (first : UInt8) : Option (Nat × UInt8 × UInt8) :=
  if first < 0x80 then some (0, 0, 0)
  else if first < 0xC2 then none
  else if first < 0xE0 then some (1, 0x80, 0xBF)
  else if first = 0xE0 then some (2, 0xA0, 0xBF)
  else if first = 0xED then some (2, 0x80, 0x9F)
  else if first < 0xF0 then some (2, 0x80, 0xBF)
  else if first = 0xF0 then some (3, 0x90, 0xBF)
  else if first < 0xF4 then some (3, 0x80, 0xBF)
  else if first = 0xF4 then some (3, 0x80, 0x8F)
  else none

/-- How many of the bytes continue a character that lacks `missing` bytes; the first of them must lie
between the bounds. -/
def continued : Nat → UInt8 → UInt8 → Bytes → Nat
  | 0, _, _, _ => 0
  | _, _, _, [] => 0
  | missing + 1, low, high, b :: rest =>
    if low ≤ b ∧ b ≤ high then 1 + continued missing 0x80 0xBF rest else 0

/-- The length of the piece at the start that a first byte and its successors form, and whether the piece
is a whole character. -/
def piece (first : UInt8) (rest : Bytes) : Nat × Bool :=
  match shape? first with
  | none => (0, false)
  | some (missing, low, high) =>
    let found := continued missing low high rest
    (found, found == missing)

def lossyChars : Nat → Bytes → List Char
  | 0, _ => []
  | _, [] => []
  | fuel + 1, first :: rest =>
    let (more, whole) := piece first rest
    let cs := if whole then ((decode? (first :: rest.take more)).getD "").toList else [replacement]
    cs ++ lossyChars fuel (rest.drop more)

/-- The text of bytes, replacement characters standing for what is no text. -/
def decodeLossy (bytes : Bytes) : String :=
  (decode? bytes).getD (String.ofList (lossyChars bytes.length bytes))

@[simp] theorem decodeLossy_encode (s : String) : decodeLossy (encode s) = s := by
  simp [decodeLossy]

end Troupe.Text
