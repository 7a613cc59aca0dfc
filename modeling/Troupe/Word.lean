import Troupe.Text.Utf8

/-!
# Words in network order

Fixed-width words as bytes, the most significant byte first.
-/

namespace Troupe.Word

/-- The `width` low bytes of a number. -/
def bytes : Nat → Nat → Bytes
  | 0, _ => []
  | width + 1, n => UInt8.ofNat (n >>> (8 * width)) :: bytes width n

def value (bytes : Bytes) : Nat := bytes.foldl (fun n b ↦ n * 256 + b.toNat) 0

/-- The first `width` bytes and the rest, if there are as many. -/
def take? (width : Nat) (bytes : Bytes) : Option (Bytes × Bytes) :=
  let head := bytes.take width
  if head.length = width then some (head, bytes.drop width) else none

/-- The word of `width` bytes at the start, and the rest. -/
def read? (width : Nat) (bytes : Bytes) : Option (Nat × Bytes) :=
  (take? width bytes).map fun (head, rest) ↦ (value head, rest)

@[simp] theorem length_bytes (width n : Nat) : (bytes width n).length = width := by
  induction width with
  | zero => rfl
  | succ width ih => simp [bytes, ih]

theorem take?_append (head rest : Bytes) : take? head.length (head ++ rest) = some (head, rest) := by
  simp [take?]

end Troupe.Word
