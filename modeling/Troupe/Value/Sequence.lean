/-!
# Sequences with signed positions

A position counts from the front when it is not negative and from the end when it is, so that `-1` is the
last element.  `Sequence.resolve?` turns it into an index; reading, replacing and inserting go through that.
-/

namespace Troupe.Sequence

variable {α : Type}

/-- The index that a signed position names in a sequence of `size` elements. -/
def resolve? (position : Int64) (size : Nat) : Option Nat :=
  let index := if position.toInt < 0 then position.toInt + size else position.toInt
  if 0 ≤ index ∧ index < size then some index.toNat else none

def find? (position : Int64) (xs : List α) : Option α :=
  (resolve? position xs.length).bind fun i ↦ xs[i]?

def set? (position : Int64) (x : α) (xs : List α) : Option (List α) :=
  (resolve? position xs.length).map fun i ↦ xs.set i x

/-- The sequence with an element inserted before a position; the position one past the end appends. -/
def insert? (position : Int64) (x : α) (xs : List α) : Option (List α) :=
  if position.toInt = xs.length then some (xs ++ [x])
  else (resolve? position xs.length).map fun i ↦ xs.take i ++ x :: xs.drop i

/-- The sequence cut, or padded at the end, to a size. -/
def resize (padding : α) (size : Nat) (xs : List α) : List α :=
  xs.take size ++ List.replicate (size - xs.length) padding

@[simp] theorem length_resize (padding : α) (size : Nat) (xs : List α) :
    (resize padding size xs).length = size := by
  simp [resize]
  omega

end Troupe.Sequence
