import Troupe.Proofs.Json.Number
import Troupe.Proofs.Numeral
import Troupe.Proofs.Yaml.Nodes
import Troupe.Proofs.Yaml.Style
import Troupe.Yaml.Read

/-!
# Scalars are read as they were written

An integer is read from its digits: they start with no zero but that of zero itself, so they stand for no
number in another base and for no text.  A text without quotes is one that reads as itself, and a text in
quotes or in a block is a text whatever it spells.
-/

namespace Troupe.Yaml

/-! ## Integers -/

/-- Digits as they are written stand for their number. -/
theorem magnitude?_toDigits (n : Nat) : magnitude? (Nat.toDigits 10 n) = some n := by
  have read : Numeral.natural? 10 (Nat.toDigits 10 n) = some n := Numeral.natural?_toDigits_ten n
  rcases Nat.eq_zero_or_pos n with rfl | positive
  · rfl
  · have sign := Numeral.splitSign_toDigits n
    obtain ⟨c, ds, first, other⟩ := Json.exists_toDigits_eq_cons positive
    rw [first] at read sign ⊢
    have leading : hasLeadingZero (c :: ds) = false := by
      rw [hasLeadingZero, sign]
      split
      · next same => exact absurd (List.cons.inj same).1 other
      · rfl
    have zero {more : List Char} {P : Prop} (same : c :: ds = '0' :: more) : P :=
      absurd (List.cons.inj same).1 other
    rw [magnitude?, leading]
    · exact read
    · exact fun more ↦ zero
    · exact fun more ↦ zero
    · exact fun more ↦ zero

/-- An integer of at most 128 bits is read from its text. -/
theorem integer?_toString {i : Int} (low : -2 ^ 127 ≤ i) (high : i < 2 ^ 128) :
    integer? (toString i).toList = some i := by
  cases i with
  | ofNat n =>
    have shape : (toString (Int.ofNat n)).toList = Nat.toDigits 10 n := Numeral.toList_toString_nat n
    rw [Int.ofNat_eq_natCast] at high
    rw [shape, integer?, Numeral.splitSign_toDigits]
    dsimp only
    rw [magnitude?_toDigits, Option.bind_some, if_neg (by decide), if_pos (by omega)]
    rfl
  | negSucc m =>
    rw [Numeral.toList_toString_negSucc, integer?, Numeral.splitSign]
    dsimp only
    rw [magnitude?_toDigits, Option.bind_some, if_pos rfl, if_pos (by omega)]
    rfl

/-- What starts with a digit or a sign is no word. -/
theorem not_word {s : String} {c : Char} {cs : List Char} (first : s.toList = c :: cs)
    (number : c = '-' ∨ Numeral.isDigit c = true) : (s == "" || isNull s) = false ∧ bool? s = none := by
  have apart (w : String) (word : w.toList.head?.all (fun d ↦ d != '-' && !Numeral.isDigit d) = true) :
      (s == w) = false := by
    rw [beq_eq_false_iff_ne]
    rintro rfl
    rw [first] at word
    obtain ⟨sign, digit⟩ : c ≠ '-' ∧ Numeral.isDigit c = false := by simpa using word
    rw [digit] at number
    exact number.elim sign Bool.false_ne_true
  constructor
  · rw [isNull, apart "" rfl, apart "null" rfl, apart "Null" rfl, apart "NULL" rfl, apart "~" rfl]
    rfl
  · rw [bool?, apart "true" rfl, apart "True" rfl, apart "TRUE" rfl,
      apart "false" rfl, apart "False" rfl, apart "FALSE" rfl]
    rfl

theorem exists_toString_int_eq_cons (i : Int) :
    ∃ c cs, (toString i).toList = c :: cs ∧ (c = '-' ∨ Numeral.isDigit c = true) := by
  cases i with
  | ofNat n =>
    obtain ⟨c, cs, first, digit⟩ := Json.exists_toString_nat_eq_cons n
    exact ⟨c, cs, first, .inr digit⟩
  | negSucc m => exact ⟨'-', _, Numeral.toList_toString_negSucc m, .inl rfl⟩

/-- The text of an integer stands for the integer. -/
theorem ofText_int {i : Int} (low : -2 ^ 127 ≤ i) (high : i < 2 ^ 128) :
    Plain.ofText (toString i) = .integer i := by
  obtain ⟨c, cs, first, number⟩ := exists_toString_int_eq_cons i
  obtain ⟨some, other⟩ := not_word first number
  rw [Plain.ofText, some, if_neg Bool.false_ne_true, other, integer?_toString low high]

/-! ## Data -/

theorem dataOfScalar?_int (i : Int64) :
    dataOfScalar? .nothing true (toString i.toInt) = some (.int i) := by
  have low : -2 ^ 63 ≤ i.toInt := Int64.le_toInt i
  have high : i.toInt < 2 ^ 63 := Int64.toInt_lt i
  have reads : Plain.ofText (toString i.toInt) = .integer i.toInt := ofText_int (by omega) (by omega)
  have fits : Data.ofInt? i.toInt = some (.int i) := by
    rw [Data.ofInt?, if_pos ⟨low, high⟩, Int64.ofInt_toInt]
  rw [dataOfScalar?, if_pos rfl, dataOfPlain?, reads]
  exact fits

theorem dataOfScalar?_uint (u : UInt64) :
    dataOfScalar? .nothing true (toString u.toNat) = some (.ofUInt64 u) := by
  have small : u.toNat < 2 ^ 64 := u.toNat_lt
  have reads : Plain.ofText (toString u.toNat) = .integer u.toNat :=
    ofText_int (i := u.toNat) (by omega) (by omega)
  have fits : Data.ofInt? u.toNat = some (.ofUInt64 u) := by
    rw [Data.ofInt?, Data.ofUInt64]
    by_cases signed : u.toNat < 2 ^ 63
    · rw [if_pos (by omega), if_pos (by omega), Int64.ofInt_eq_ofNat]
    · rw [if_neg (by omega), if_pos (by omega), if_neg (by omega), Int.toNat_natCast, UInt64.ofNat_toNat]
  rw [dataOfScalar?, if_pos rfl, dataOfPlain?, reads]
  exact fits

/-- A text without quotes reads as itself, and any other is a text in any case. -/
theorem dataOfScalar?_text (s : String) :
    dataOfScalar? .nothing (Style.of s = .plain) s = some (.string s) := by
  by_cases plain : Style.of s = .plain
  · have reads := (Style.of_plain plain).1
    rw [dataOfScalar?, if_pos (by simpa using plain), dataOfPlain?, reads]
  · rw [dataOfScalar?, if_neg (by simpa using plain)]

end Troupe.Yaml
