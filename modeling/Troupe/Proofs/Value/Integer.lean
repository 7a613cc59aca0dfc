import Troupe.Proofs.Numeral
import Troupe.Value.Shape

/-!
# Integers as values and as texts

An integer from `-2 ^ 63` up to `2 ^ 64` is held as a signed value if it fits, as an unsigned one otherwise,
and it is also written as a text, possibly after a plus.  A reader asks for it in one of five integer types.

Whatever the form, the answer is the integer if the type holds it, and nothing otherwise
(`Width.coherent`).  A text may have a sign that a type refuses: unsigned types read no minus, not even the
one before a zero.
-/

namespace Troupe

/-- The integer types that values are read as. -/
inductive Width where
  /-- signed, of 64 bits -/
  | int64
  /-- signed, of 32 bits -/
  | int32
  /-- unsigned, of 64 bits -/
  | uint64
  /-- unsigned, of 32 bits -/
  | uint32
  /-- a number of elements -/
  | size
deriving DecidableEq, Repr

namespace Width

/-- What a reader of the type asks for. -/
def shape : Width → Shape
  | .int64 => .int64
  | .int32 => .int32
  | .uint64 => .uint64
  | .uint32 => .uint32
  | .size => .size

/-- Whether the type has negative integers. -/
def signed : Width → Bool
  | .int64 | .int32 => true
  | .uint64 | .uint32 | .size => false

/-- The least integer of the type. -/
def least : Width → Int
  | .int64 => -2 ^ 63
  | .int32 => -2 ^ 31
  | .uint64 | .uint32 | .size => 0

/-- The first integer beyond the type. -/
def limit : Width → Int
  | .int64 => 2 ^ 63
  | .int32 => 2 ^ 31
  | .uint64 | .size => 2 ^ 64
  | .uint32 => 2 ^ 32

/-- The integer is in the range of the type. -/
def Holds (t : Width) (n : Int) : Prop := t.least ≤ n ∧ n < t.limit

instance (t : Width) (n : Int) : Decidable (t.Holds n) := inferInstanceAs (Decidable (_ ∧ _))

/-- The type reads the sign that a text starts with. -/
def Accepts (t : Width) (s : String) : Prop := t.signed = true ∨ s.toList.head? ≠ some '-'

instance (t : Width) (s : String) : Decidable (t.Accepts s) := inferInstanceAs (Decidable (_ ∨ _))

/-- The integer that a word of the type stands for. -/
def toInt : (t : Width) → t.shape.Carrier → Int
  | .int64, i => Int64.toInt i
  | .int32, i => Int32.toInt i
  | .uint64, u => UInt64.toNat u
  | .uint32, u => UInt32.toNat u
  | .size, u => UInt64.toNat u

/-- The integer that a reader of the type gets from a value. -/
def integer? (t : Width) (v : Value) : Option Int := (t.shape.extract? v).map t.toInt

variable {t u : Width} {n : Int}

/-- A word is in the range of its type. -/
theorem holds_toInt (x : t.shape.Carrier) : t.Holds (t.toInt x) := by
  cases t with
  | int64 => exact ⟨Int64.le_toInt x, Int64.toInt_lt x⟩
  | int32 => exact ⟨Int32.le_toInt x, Int32.toInt_lt x⟩
  | uint64 | size => exact ⟨Int.natCast_nonneg _, Int.ofNat_lt.mpr (UInt64.toNat_lt x)⟩
  | uint32 => exact ⟨Int.natCast_nonneg _, Int.ofNat_lt.mpr (UInt32.toNat_lt x)⟩

/-- Different words stand for different integers. -/
theorem toInt_injective : Function.Injective t.toInt := by
  intro x y same
  cases t with
  | int64 => exact Int64.toInt_inj.mp same
  | int32 => exact Int32.toInt_inj.mp same
  | uint64 | size => exact UInt64.toNat_inj.mp (Int.ofNat_inj.mp same)
  | uint32 => exact UInt32.toNat_inj.mp (Int.ofNat_inj.mp same)

/-! ## Narrowing -/

/-- The type of 64 bits that the type is narrowed from. -/
def widest : Width → Width
  | .int64 | .int32 => .int64
  | .uint64 | .uint32 | .size => .uint64

theorem Holds.widest (holds : t.Holds n) : t.widest.Holds n := by
  cases t <;> simp only [Holds, Width.widest, least, limit] at holds ⊢ <;> omega

theorem Holds.bounds (holds : t.Holds n) : -2 ^ 63 ≤ n ∧ n < 2 ^ 64 := by
  cases t <;> simp only [Holds, least, limit] at holds <;> omega

theorem integer?_int64 (v : Value) : int64.integer? v = (Shape.int64? v).map Int64.toInt := rfl

theorem integer?_uint64 (v : Value) :
    uint64.integer? v = (Shape.uint64? v).map fun u ↦ (u.toNat : Int) := rfl

theorem filter_holds (o : Option t.shape.Carrier) :
    (o.map t.toInt).filter (fun n ↦ t.Holds n) = o.map t.toInt := by
  cases o with
  | none => rfl
  | some x => rw [Option.map_some, Option.filter_some, if_pos (decide_eq_true (holds_toInt x))]

/-- An integer is read with 64 bits, and refused if the type does not hold it. -/
theorem integer?_eq_filter (t : Width) (v : Value) :
    t.integer? v = (t.widest.integer? v).filter fun n ↦ t.Holds n := by
  cases t with
  | int64 => exact (filter_holds (t := int64) (Shape.int64? v)).symm
  | uint64 => exact (filter_holds (t := uint64) (Shape.uint64? v)).symm
  | size => exact (filter_holds (t := size) (Shape.uint64? v)).symm
  | int32 =>
    have narrowed : int32.integer? v = ((Shape.int64? v).bind fun i ↦
      if -2 ^ 31 ≤ i.toInt ∧ i.toInt < 2 ^ 31 then some (Int32.ofInt i.toInt) else none).map Int32.toInt :=
        rfl
    rw [narrowed, widest, integer?_int64]
    cases Shape.int64? v with
    | none => rfl
    | some i =>
      have holds : int32.Holds i.toInt ↔ -2 ^ 31 ≤ i.toInt ∧ i.toInt < 2 ^ 31 := Iff.rfl
      simp only [Option.bind_some, Option.map_some, Option.filter_some, decide_eq_true_eq, holds]
      split
      · next fits => rw [Option.map_some, Int32.toInt_ofInt_of_le fits.1 fits.2]
      · rfl
  | uint32 =>
    have narrowed : uint32.integer? v = ((Shape.uint64? v).bind fun u ↦
      if u.toNat < 2 ^ 32 then some (UInt32.ofNat u.toNat) else none).map fun u ↦ (u.toNat : Int) := rfl
    rw [narrowed, widest, integer?_uint64]
    cases Shape.uint64? v with
    | none => rfl
    | some u =>
      have holds : uint32.Holds u.toNat ↔ u.toNat < 2 ^ 32 := by
        simp only [Holds, least, limit]
        omega
      simp only [Option.bind_some, Option.map_some, Option.filter_some, decide_eq_true_eq, holds]
      split
      · next fits => rw [Option.map_some, UInt32.toNat_ofNat_of_lt' fits]
      · rfl

end Width

/-! ## Integers as values -/

namespace Value

/-- An integer in its preferred form: signed whenever it fits. -/
def ofInteger (n : Int) : Value :=
  if n < 0 then .int (Int64.ofInt n) else .ofUInt64 (UInt64.ofNat n.toNat)

theorem ofInteger_of_lt {n : Int} (high : n < 2 ^ 63) : ofInteger n = .int (Int64.ofInt n) := by
  rw [ofInteger]
  split
  · rfl
  · next positive =>
    obtain ⟨k, rfl⟩ := Int.eq_ofNat_of_zero_le (Int.not_lt.mp positive)
    have small : k < 2 ^ 63 := by omega
    have same : (UInt64.ofNat k).toNat = k := UInt64.toNat_ofNat_of_lt' (Nat.lt_trans small (by decide))
    rw [Int.toNat_natCast, ofUInt64, same, if_pos (by omega), Int64.ofInt_eq_ofNat]

theorem ofInteger_of_le {n : Int} (low : 2 ^ 63 ≤ n) (high : n < 2 ^ 64) :
    ofInteger n = .uint (UInt64.ofNat n.toNat) := by
  have small : n.toNat < 2 ^ 64 := by omega
  have same : (UInt64.ofNat n.toNat).toNat = n.toNat := UInt64.toNat_ofNat_of_lt' small
  rw [ofInteger, if_neg (by omega), ofUInt64, same, if_neg (by omega)]

end Value

namespace Width

variable {t u : Width} {n : Int}

/-- What a word is as a value depends on its integer alone. -/
theorem toValue_eq (x : t.shape.Carrier) : t.shape.toValue x = .ofInteger (t.toInt x) := by
  cases t with
  | int64 =>
    change Value.int x = .ofInteger (Int64.toInt x)
    rw [Value.ofInteger_of_lt (Int64.toInt_lt x)]
    exact congrArg Value.int (Int64.ofInt_toInt x).symm
  | int32 =>
    change Value.int (Int64.ofInt (Int32.toInt x)) = .ofInteger (Int32.toInt x)
    rw [Value.ofInteger_of_lt (Int.lt_trans (Int32.toInt_lt x) (by decide))]
  | uint64 | size =>
    change Value.ofUInt64 x = .ofInteger (UInt64.toNat x)
    rw [Value.ofInteger, if_neg (Int.not_lt.mpr (Int.natCast_nonneg _)), Int.toNat_natCast]
    exact congrArg Value.ofUInt64 UInt64.ofNat_toNat.symm
  | uint32 =>
    change Value.ofUInt64 (UInt64.ofNat (UInt32.toNat x)) = .ofInteger (UInt32.toNat x)
    rw [Value.ofInteger, if_neg (Int.not_lt.mpr (Int.natCast_nonneg _)), Int.toNat_natCast]

theorem integer?_int64_ofInteger (low : -2 ^ 63 ≤ n) (high : n < 2 ^ 64) :
    int64.integer? (.ofInteger n) = if int64.Holds n then some n else none := by
  by_cases fits : n < 2 ^ 63
  · have same : (Int64.ofInt n).toInt = n := Int64.toInt_ofInt_of_le low fits
    rw [Value.ofInteger_of_lt fits, if_pos ⟨low, fits⟩]
    exact congrArg some same
  · rw [Value.ofInteger_of_le (Int.not_lt.mp fits) high, if_neg fun holds ↦ fits holds.2]
    rfl

theorem integer?_uint64_ofInteger (low : -2 ^ 63 ≤ n) (high : n < 2 ^ 64) :
    uint64.integer? (.ofInteger n) = if uint64.Holds n then some n else none := by
  have same (positive : 0 ≤ n) : ((UInt64.ofNat n.toNat).toNat : Int) = n := by
    have small : n.toNat < 2 ^ 64 := by omega
    rw [UInt64.toNat_ofNat_of_lt' small, Int.toNat_of_nonneg positive]
  by_cases fits : n < 2 ^ 63
  · have signed : (Int64.ofInt n).toInt = n := Int64.toInt_ofInt_of_le low fits
    rw [Value.ofInteger_of_lt fits, integer?_uint64, Shape.uint64?, signed]
    by_cases positive : 0 ≤ n
    · rw [if_pos positive, if_pos ⟨positive, high⟩, Option.map_some, same positive]
    · rw [if_neg positive, if_neg fun holds ↦ positive holds.1, Option.map_none]
  · have positive : 0 ≤ n := by omega
    rw [Value.ofInteger_of_le (Int.not_lt.mp fits) high, if_pos ⟨positive, high⟩, integer?_uint64,
      Shape.uint64?, Option.map_some, same positive]

/-- An integer is read from its value if the type holds it. -/
theorem integer?_ofInteger (t : Width) (low : -2 ^ 63 ≤ n) (high : n < 2 ^ 64) :
    t.integer? (.ofInteger n) = if t.Holds n then some n else none := by
  have wide : t.widest.integer? (.ofInteger n) = if t.widest.Holds n then some n else none := by
    cases t with
    | int64 | int32 => exact integer?_int64_ofInteger low high
    | uint64 | uint32 | size => exact integer?_uint64_ofInteger low high
  rw [integer?_eq_filter, wide]
  by_cases holds : t.Holds n
  · rw [if_pos holds.widest, if_pos holds, Option.filter_some, if_pos (decide_eq_true holds)]
  · rw [if_neg holds]
    split
    · rw [Option.filter_some, if_neg (by simpa using holds)]
    · rfl

/-! ## Integers as texts -/

theorem integer?_int64_string (s : String) :
    int64.integer? (.string s) = (Numeral.integer? 10 s.toList).filter fun n ↦ int64.Holds n := by
  change (Numeral.int64? s).map Int64.toInt = _
  rw [Numeral.int64?]
  cases Numeral.integer? 10 s.toList with
  | none => rfl
  | some n =>
    have holds : int64.Holds n ↔ -0x8000000000000000 ≤ n ∧ n < 0x8000000000000000 := Iff.rfl
    simp only [Option.bind_eq_bind, Option.bind_some, Option.filter_some, decide_eq_true_eq, holds]
    split
    · next fits => rw [Option.map_some, Int64.toInt_ofInt_of_le fits.1 fits.2]
    · rfl

theorem integer?_uint64_string (s : String) :
    uint64.integer? (.string s) =
      (Numeral.integer? 10 s.toList).filter fun n ↦ uint64.Holds n ∧ s.toList.head? ≠ some '-' := by
  have minus : (Numeral.splitSign s.toList).1 = some true ↔ s.toList.head? = some '-' :=
    Numeral.splitSign_fst_eq_minus
  rw [integer?_uint64, Shape.uint64?, Numeral.uint64?, Numeral.integer?]
  generalize Numeral.splitSign s.toList = parts at minus ⊢
  obtain ⟨sign, digits⟩ := parts
  dsimp only at minus ⊢
  cases Numeral.natural? 10 digits with
  | none => rw [Option.bind_eq_bind, Option.bind_none, ite_self]; rfl
  | some n =>
    by_cases negative : sign = some true
    · simp [negative, minus.mp negative]
    · have plain : s.toList.head? ≠ some '-' := mt minus.mpr negative
      have holds : uint64.Holds n ↔ n < 0x10000000000000000 := by
        simp only [Holds, least, limit]
        omega
      simp only [if_neg negative, Option.pure_def, Option.map_some, Option.filter_some, Option.bind_eq_bind,
        Option.bind_some, decide_eq_true_eq, plain, holds, ne_eq, not_false_eq_true, and_true]
      split
      · next fits => rw [Option.map_some, UInt64.toNat_ofNat_of_lt' fits]
      · rfl

/-- A text is read as the integer that it stands for, if the type holds it and reads its sign. -/
theorem integer?_string (t : Width) (s : String) :
    t.integer? (.string s) = (Numeral.integer? 10 s.toList).filter fun n ↦ t.Holds n ∧ t.Accepts s := by
  have wide : t.widest.integer? (.string s) =
      (Numeral.integer? 10 s.toList).filter fun n ↦ t.widest.Holds n ∧ t.Accepts s := by
    cases t with
    | int64 | int32 => simpa [widest, Accepts, signed] using integer?_int64_string s
    | uint64 | uint32 | size => simpa [widest, Accepts, signed] using integer?_uint64_string s
  rw [integer?_eq_filter, wide]
  cases Numeral.integer? 10 s.toList with
  | none => rfl
  | some n =>
    by_cases holds : t.Holds n
    · by_cases accepted : t.Accepts s <;>
        simp [Option.filter_some, holds, holds.widest, accepted]
    · by_cases accepted : t.widest.Holds n ∧ t.Accepts s <;>
        simp [Option.filter_some, holds, accepted]

/-- A text of an integer that starts with no minus but that of a negative one. -/
theorem integer?_string_of_numeral (t : Width) {s : String} (stands : Numeral.integer? 10 s.toList = some n)
    (sign : s.toList.head? = some '-' → n < 0) :
    t.integer? (.string s) = if t.Holds n then some n else none := by
  have accepted (holds : t.Holds n) : t.Accepts s := by
    cases t with
    | int64 | int32 => exact .inl rfl
    | uint64 | uint32 | size => exact .inr fun minus ↦ absurd (sign minus) (Int.not_lt.mpr holds.1)
  rw [integer?_string, stands]
  by_cases holds : t.Holds n
  · simp [Option.filter_some, holds, accepted holds]
  · simp [Option.filter_some, holds]

/-- The text of an integer is its decimal text, however it is held. -/
theorem text_ofInteger (h : Heap) (low : -2 ^ 63 ≤ n) (high : n < 2 ^ 64) :
    h.text (.ofInteger n) = toString n := by
  by_cases fits : n < 2 ^ 63
  · have same : (Int64.ofInt n).toInt = n := Int64.toInt_ofInt_of_le low fits
    rw [Value.ofInteger_of_lt fits]
    simp [Heap.text, Heap.read, Heap.readAt, Data.text, same]
  · obtain ⟨k, rfl⟩ := Int.eq_ofNat_of_zero_le (show 0 ≤ n by omega)
    have same : (UInt64.ofNat k).toNat = k := UInt64.toNat_ofNat_of_lt' (show k < 2 ^ 64 by omega)
    have unsigned : toString (k : Int) = toString k := rfl
    rw [Value.ofInteger_of_le (Int.not_lt.mp fits) high, unsigned]
    simp [Heap.text, Heap.read, Heap.readAt, Data.text, same]

/-! ## All forms of an integer -/

/-- An integer is read by a type from its value, from its text and from its text with a plus, exactly if
the type holds it.  So every word is read back from its value.  And what one type reads from a text, another
reads from it exactly if it holds the integer and reads the sign. -/
theorem coherent (t : Width) :
    (∀ n : Int, -2 ^ 63 ≤ n → n < 2 ^ 64 → ∀ h : Heap,
      let answer := if t.Holds n then some n else none
      t.integer? (.ofInteger n) = answer ∧
        t.integer? (.string (h.text (.ofInteger n))) = answer ∧
        (0 ≤ n → t.integer? (.string ("+" ++ h.text (.ofInteger n))) = answer)) ∧
      (∀ x : t.shape.Carrier,
        t.shape.toValue x = .ofInteger (t.toInt x) ∧ t.shape.extract? (t.shape.toValue x) = some x) ∧
      ∀ (u : Width) (s : String) (n : Int), t.integer? (.string s) = some n →
        u.integer? (.string s) = if u.Holds n ∧ u.Accepts s then some n else none := by
  refine ⟨fun n low high h ↦ ⟨t.integer?_ofInteger low high, ?_, fun positive ↦ ?_⟩,
    fun x ↦ ⟨toValue_eq x, ?_⟩, fun u s n read ↦ ?_⟩
  · rw [text_ofInteger h low high]
    exact integer?_string_of_numeral t (Numeral.integer?_toString n) Numeral.neg_of_head?_toString
  · obtain ⟨k, rfl⟩ := Int.eq_ofNat_of_zero_le positive
    have plus : ("+" ++ toString (k : Int)).toList = '+' :: (toString k).toList := String.toList_append
    rw [text_ofInteger h low high]
    refine integer?_string_of_numeral t ?_ fun minus ↦ ?_
    · rw [plus, Numeral.integer?_plus_toString]
    · rw [plus] at minus
      cases minus
  · have holds : t.Holds (t.toInt x) := holds_toInt x
    have read := t.integer?_ofInteger holds.bounds.1 holds.bounds.2
    rw [if_pos holds, ← toValue_eq] at read
    exact Option.map_injective toInt_injective read
  · rw [integer?_string] at read ⊢
    rw [(Option.filter_eq_some_iff.mp read).1, Option.filter_some]
    simp only [decide_eq_true_eq]

/-- The first integer that is too large for a signed word, in all its forms, and a zero with a sign. -/
theorem coherent_limit :
    let n : Int := 2 ^ 63
    int64.integer? (.ofInteger n) = none ∧ size.integer? (.ofInteger n) = some n ∧
      int64.integer? (.string (Heap.empty.text (.ofInteger n))) = none ∧
      size.integer? (.string ("+" ++ Heap.empty.text (.ofInteger n))) = some n ∧
      int32.integer? (.string "-0") = some 0 ∧ size.integer? (.string "-0") = none := by
  obtain ⟨signed, spelled, -⟩ := (coherent int64).1 (2 ^ 63) (by decide) (by decide) .empty
  obtain ⟨unsigned, -, plus⟩ := (coherent size).1 (2 ^ 63) (by decide) (by decide) .empty
  have zero : int64.integer? (.string "-0") = some 0 := by decide
  have others (u : Width) := (coherent int64).2.2 u "-0" 0 zero
  exact ⟨signed, unsigned, spelled, plus (by decide), others int32, others size⟩

end Width

end Troupe
