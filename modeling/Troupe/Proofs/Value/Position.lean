import Mathlib.Algebra.Group.Int.Defs
import Mathlib.Algebra.Group.Nat.Defs
import Troupe.Value.Container

/-!
# Positions of elements

A signed position that is not negative counts from the front, and a negative one from the end.  So among
`size` elements those from `-size` up to `size` name one each, and for insertions `size` names the place
behind the last element; no other position names any (`Sequence.Within`, `Sequence.place`).

An unsigned index is taken as the position of the same bits.  The indexes beyond the last element are missing
ones, except the last few that a word holds: those are negative positions, so they name elements, counted
from the end (`Sequence.get_of_index`).
-/

namespace Troupe.Sequence

variable {α : Type} {position : Int64} {size : Nat} {xs : List α}

/-- The position is that of an element. -/
def Within (position : Int64) (size : Nat) : Prop := -(size : Int) ≤ position.toInt ∧ position.toInt < size

instance : Decidable (Within position size) := inferInstanceAs (Decidable (_ ∧ _))

/-- The place that a position names, counted from the front or from the end. -/
def place (position : Int64) (size : Nat) : Nat :=
  (if position.toInt < 0 then size + position.toInt else position.toInt).toNat

theorem place_lt (within : Within position size) : place position size < size := by
  obtain ⟨low, high⟩ := within
  rw [place]
  split <;> omega

theorem resolve?_eq (position : Int64) (size : Nat) :
    resolve? position size = if Within position size then some (place position size) else none := by
  simp only [resolve?, Within, place]
  by_cases negative : position.toInt < 0
  · simp only [if_pos negative, Int.add_comm (size : Int)]
    congr 1
    exact propext ⟨fun bounds ↦ by omega, fun bounds ↦ by omega⟩
  · simp only [if_neg negative]
    congr 1
    exact propext ⟨fun bounds ↦ by omega, fun bounds ↦ by omega⟩

theorem find?_eq (position : Int64) (xs : List α) :
    find? position xs = if Within position xs.length then xs[place position xs.length]? else none := by
  rw [find?, resolve?_eq]
  split <;> rfl

theorem set?_eq (position : Int64) (x : α) (xs : List α) :
    set? position x xs =
      if Within position xs.length then some (xs.set (place position xs.length) x) else none := by
  rw [set?, resolve?_eq]
  split <;> rfl

theorem take_append_cons_drop {i : Nat} (x : α) (inside : i ≤ xs.length) :
    xs.take i ++ x :: xs.drop i = xs.insertIdx i x := by
  induction i generalizing xs with
  | zero => rfl
  | succ i ih =>
    cases xs with
    | nil => cases inside
    | cons y ys =>
      rw [List.insertIdx_succ_cons, ← ih (Nat.le_of_succ_le_succ inside)]
      rfl

/-- Insertion has one more position, behind the last element. -/
theorem insert?_eq (position : Int64) (x : α) (xs : List α) :
    insert? position x xs =
      if -(xs.length : Int) ≤ position.toInt ∧ position.toInt ≤ xs.length then
        some (xs.insertIdx (place position xs.length) x)
      else none := by
  rw [insert?, resolve?_eq]
  by_cases last : position.toInt = xs.length
  · have behind : place position xs.length = xs.length := by
      rw [place, last, if_neg (by omega), Int.toNat_natCast]
    rw [if_pos last, if_pos (by omega), behind, List.insertIdx_length_self]
  · rw [if_neg last]
    by_cases within : Within position xs.length
    · have bounds : -(xs.length : Int) ≤ position.toInt ∧ position.toInt ≤ xs.length :=
        ⟨within.1, Int.le_of_lt within.2⟩
      rw [if_pos within, if_pos bounds, Option.map_some,
        take_append_cons_drop x (Nat.le_of_lt (place_lt within))]
    · have outside : ¬ (-(xs.length : Int) ≤ position.toInt ∧ position.toInt ≤ xs.length) :=
        fun bounds ↦ within ⟨bounds.1, by omega⟩
      rw [if_neg within, if_neg outside, Option.map_none]

/-- What was there stays as far as it fits, and the rest is padding. -/
theorem getElem?_resize (padding : α) {i : Nat} (below : i < size) :
    (resize padding size xs)[i]? = some (xs[i]?.getD padding) := by
  rw [resize]
  by_cases kept : i < xs.length
  · have inside : i < (xs.take size).length := by
      rw [List.length_take]
      omega
    rw [List.getElem?_append_left inside, List.getElem?_take_of_lt below, List.getElem?_eq_getElem kept,
      Option.getD_some]
  · have behind : (xs.take size).length = xs.length := by
      rw [List.length_take]
      omega
    rw [List.getElem?_append_right (by omega), behind, List.getElem?_replicate_of_lt (by omega),
      List.getElem?_eq_none (Nat.le_of_not_lt kept), Option.getD_none]

/-! ## Unsigned indexes -/

/-- An index in the upper half is a negative position. -/
theorem toInt_toInt64 (index : UInt64) :
    index.toInt64.toInt = if index.toNat < 2 ^ 63 then (index.toNat : Int) else index.toNat - 2 ^ 64 := by
  have word : index.toInt64.toInt = index.toBitVec.toInt := rfl
  rw [word, BitVec.toInt_eq_toNat_cond, UInt64.toNat_toBitVec]
  split <;> split <;> omega

/-- An index that is no negative position names the element that it counts to. -/
theorem find?_toInt64_of_lt {index : UInt64} (low : index.toNat < 2 ^ 63) (xs : List α) :
    find? index.toInt64 xs = xs[index.toNat]? := by
  have position : index.toInt64.toInt = index.toNat := by rw [toInt_toInt64, if_pos low]
  have here : place index.toInt64 xs.length = index.toNat := by
    rw [place, position, if_neg (by omega), Int.toNat_natCast]
  have within : Within index.toInt64 xs.length ↔ index.toNat < xs.length := by
    rw [Within, position]
    omega
  rw [find?_eq, here]
  by_cases inside : index.toNat < xs.length
  · rw [if_pos (within.mpr inside)]
  · rw [if_neg (mt within.mp inside), List.getElem?_eq_none (Nat.le_of_not_lt inside)]

/-- Other indexes count from the end, so far as there are elements. -/
theorem find?_toInt64_of_le {index : UInt64} (high : 2 ^ 63 ≤ index.toNat) (xs : List α) :
    find? index.toInt64 xs =
      if 2 ^ 64 ≤ index.toNat + xs.length then xs[index.toNat + xs.length - 2 ^ 64]? else none := by
  have below : index.toNat < 2 ^ 64 := index.toNat_lt
  have position : index.toInt64.toInt = (index.toNat : Int) - 2 ^ 64 := by
    rw [toInt_toInt64, if_neg (by omega)]
  have here : place index.toInt64 xs.length = index.toNat + xs.length - 2 ^ 64 := by
    rw [place, position, if_pos (by omega)]
    omega
  have within : Within index.toInt64 xs.length ↔ 2 ^ 64 ≤ index.toNat + xs.length := by
    rw [Within, position]
    omega
  rw [find?_eq, here]
  by_cases reaches : 2 ^ 64 ≤ index.toNat + xs.length
  · rw [if_pos (within.mpr reaches), if_pos reaches]
  · rw [if_neg (mt within.mp reaches), if_neg reaches]

theorem find?_ofNat {i : Nat} (small : i < 2 ^ 63) (xs : List α) :
    find? (UInt64.ofNat i).toInt64 xs = xs[i]? := by
  have index : (UInt64.ofNat i).toNat = i := UInt64.toNat_ofNat_of_lt' (Nat.lt_trans small (by decide))
  rw [find?_toInt64_of_lt (by rwa [index]), index]

/-- An element as a shape, or the error that names its index. -/
def taken (index : UInt64) (s : Shape) (v : Value) : Except ValueError s.Carrier :=
  match s.extract? v with
  | none => .error (.invalidArgumentCast index v.kind s.kind)
  | some x => .ok x

variable {index : UInt64} {s : Shape} {v : Value} {vs : List Value}

theorem taken_ne_invalidIndex : taken index s v ≠ .error (.invalidIndex index) := by
  rw [taken]
  split <;> nofun

theorem get_of_find? (found : find? index.toInt64 vs = some v) : get vs index s = taken index s v := by
  rw [get, found]
  rfl

theorem get_of_find?_none (missing : find? index.toInt64 vs = none) :
    get vs index s = .error (.invalidIndex index) := by
  rw [get, missing]

/-- In a list that signed positions can count, an index below the size names the element at it, whatever it
is to be read as.  An index from the size on is refused as missing, and named, if it is not one of the last
`size` indexes that a word holds; those name the elements once more, in order. -/
theorem get_of_index (few : vs.length ≤ 2 ^ 63) (index : UInt64) (s : Shape) :
    (∀ v, vs[index.toNat]? = some v → get vs index s = taken index s v) ∧
    (∀ v, 2 ^ 64 ≤ index.toNat + vs.length → vs[index.toNat + vs.length - 2 ^ 64]? = some v →
      get vs index s = taken index s v) ∧
    (get vs index s = .error (.invalidIndex index) ↔
      vs.length ≤ index.toNat ∧ index.toNat + vs.length < 2 ^ 64) := by
  have low (below : index.toNat < 2 ^ 63) := find?_toInt64_of_lt below vs
  have high (beyond : 2 ^ 63 ≤ index.toNat) := find?_toInt64_of_le beyond vs
  have front : ∀ v, vs[index.toNat]? = some v → get vs index s = taken index s v := by
    intro v found
    have inside := (List.getElem?_eq_some_iff.mp found).1
    exact get_of_find? ((low (by omega)).trans found)
  have back : ∀ v, 2 ^ 64 ≤ index.toNat + vs.length → vs[index.toNat + vs.length - 2 ^ 64]? = some v →
      get vs index s = taken index s v := by
    intro v reaches found
    exact get_of_find? ((high (by omega)).trans (by rw [if_pos reaches, found]))
  refine ⟨front, back, fun refused ↦ ⟨?_, ?_⟩, fun ⟨beyond, short⟩ ↦ get_of_find?_none ?_⟩
  · refine Nat.le_of_not_lt fun inside ↦ ?_
    have extracted := front _ (List.getElem?_eq_getElem inside)
    exact taken_ne_invalidIndex (extracted.symm.trans refused)
  · refine Nat.lt_of_not_le fun reaches ↦ ?_
    have below : index.toNat < 2 ^ 64 := index.toNat_lt
    have inside : index.toNat + vs.length - 2 ^ 64 < vs.length := by omega
    have extracted := back _ reaches (List.getElem?_eq_getElem inside)
    exact taken_ne_invalidIndex (extracted.symm.trans refused)
  · rcases Nat.lt_or_ge index.toNat (2 ^ 63) with below | above
    · rw [low below, List.getElem?_eq_none beyond]
    · rw [high above, if_neg (by omega)]

theorem get_of_index_pair :
    let vs : List Value := [.int 10, .string "20"]
    vs.length ≤ 2 ^ 63 ∧ get vs 1 .int64 = .ok (20 : Int64) ∧
      get vs 2 .value = .error (.invalidIndex 2) ∧
      get vs 0xFFFFFFFFFFFFFFFE .string = .error (.invalidArgumentCast 0xFFFFFFFFFFFFFFFE .int .string) := by
  have few : [Value.int 10, .string "20"].length ≤ 2 ^ 63 := by decide
  refine ⟨few, ?_, ?_, ?_⟩
  · exact (get_of_index few 1 .int64).1 (.string "20") rfl
  · exact (get_of_index few 2 .value).2.2.mpr (by decide)
  · exact (get_of_index few 0xFFFFFFFFFFFFFFFE .string).2.1 (.int 10) (by decide) rfl

/-- The greatest index of all names the last element of a list, although the list has no such element. -/
theorem get_greatest_index :
    let index : UInt64 := 0xFFFFFFFFFFFFFFFF
    [Value.int 1].length ≤ index.toNat ∧ get [.int 1] index .int64 = .ok (1 : Int64) ∧
      get [.int 1] index .int64 ≠ .error (.invalidIndex index) := by
  have found : get [.int 1] 0xFFFFFFFFFFFFFFFF .int64 = .ok (1 : Int64) := by rfl
  refine ⟨by decide, found, ?_⟩
  rw [found]
  nofun

end Troupe.Sequence
