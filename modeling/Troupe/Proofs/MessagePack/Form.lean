import Mathlib.Tactic.SplitIfs
import Troupe.MessagePack.Read
import Troupe.MessagePack.Write
import Troupe.Proofs.Data
import Troupe.Proofs.Word

/-!
# Forms are read as they were written

The first byte of what is written announces what follows: the sizes of texts, lists and maps are found in
that byte or in a word after it (`Announces`), and integers are read from each of their forms as the number
that was written.
-/

namespace Troupe.MessagePack

/-! ## Sizes -/

/-- The bytes announce the size `n` in one of two ways: in their only byte, or in the word after it. -/
inductive Announces (inByte inWord : Nat → Form) (n : Nat) : Bytes → Prop
  | inByte {first : UInt8} (form : Form.ofByte first = inByte n) : Announces inByte inWord n [first]
  | inWord {first : UInt8} {width : Nat} (form : Form.ofByte first = inWord width)
      (room : n < 256 ^ width) : Announces inByte inWord n (first :: Word.bytes width n)

section Bytes

variable {n : Nat}

theorem toNat_ofNat_of_lt (small : n < 2 ^ 8) : (UInt8.ofNat n).toNat = n := by
  rw [UInt8.toNat_ofNat']
  omega

theorem ofByte_complete (small : n < 2 ^ 7) :
    Form.ofByte (UInt8.ofNat n) = .complete (.int (Int64.ofNat n)) := by
  rw [Form.ofByte, toNat_ofNat_of_lt (by omega), if_pos (by omega)]

theorem ofByte_map (small : n < 2 ^ 4) : Form.ofByte (UInt8.ofNat (0x80 + n)) = .map n := by
  rw [Form.ofByte, toNat_ofNat_of_lt (by omega), if_neg (by omega), if_pos (by omega),
    Nat.add_sub_cancel_left]

theorem ofByte_list (small : n < 2 ^ 4) : Form.ofByte (UInt8.ofNat (0x90 + n)) = .list n := by
  rw [Form.ofByte, toNat_ofNat_of_lt (by omega), if_neg (by omega), if_neg (by omega),
    if_pos (by omega), Nat.add_sub_cancel_left]

theorem ofByte_text (small : n < 2 ^ 5) : Form.ofByte (UInt8.ofNat (0xA0 + n)) = .text n := by
  rw [Form.ofByte, toNat_ofNat_of_lt (by omega), if_neg (by omega), if_neg (by omega),
    if_neg (by omega), if_pos (by omega), Nat.add_sub_cancel_left]

/-- The last thirty-two bytes are the negative integers from `-32` up. -/
theorem ofByte_negative {i : Int} (low : -2 ^ 5 ≤ i) (negative : i < 0) :
    Form.ofByte (UInt8.ofNat (i + 2 ^ 8).toNat) = .complete (.int (Int64.ofInt i)) := by
  rw [Form.ofByte, toNat_ofNat_of_lt (by omega), if_neg (by omega), if_neg (by omega),
    if_neg (by omega), if_neg (by omega), if_pos (by omega)]
  congr 3
  omega

end Bytes

section Sizes

variable {n : Nat} (room : n < 2 ^ 32)
include room

theorem announces_textHeader : Announces .text .textOf n (textHeader n) := by
  unfold textHeader
  split_ifs with small byte word
  · exact .inByte (ofByte_text small)
  · exact .inWord rfl byte
  · exact .inWord rfl word
  · exact .inWord rfl room

theorem announces_listHeader : Announces .list .listOf n (listHeader n) := by
  unfold listHeader
  split_ifs with small word
  · exact .inByte (ofByte_list small)
  · exact .inWord rfl word
  · exact .inWord rfl room

theorem announces_mapHeader : Announces .map .mapOf n (mapHeader n) := by
  unfold mapHeader
  split_ifs with small word
  · exact .inByte (ofByte_map small)
  · exact .inWord rfl word
  · exact .inWord rfl room

end Sizes

/-! ## Texts -/

section Texts

variable (s : String) (rest : Bytes)

theorem textOf_encode : textOf (Text.encode s).length (Text.encode s ++ rest) = some (s, rest) := by
  simp [textOf, Word.take?_append]

theorem sizedText_encode {width : Nat} (room : (Text.encode s).length < 256 ^ width) :
    sizedText width (Word.bytes width (Text.encode s).length ++ (Text.encode s ++ rest)) =
      some (s, rest) := by
  simp [sizedText, Word.read?_bytes_append room, textOf_encode]

variable {s} {header : Bytes} (announced : Announces .text .textOf (Text.encode s).length header)
include announced

/-- A text is read as a key. -/
theorem key_text : key (header ++ (Text.encode s ++ rest)) = some (s, rest) := by
  cases announced with
  | inByte form => simp [key, form, textOf_encode]
  | inWord form room => simp [key, form, sizedText_encode s rest room]

/-- A text is read as a value. -/
theorem value_text (fuel depth : Nat) :
    value (fuel + 1) depth (header ++ (Text.encode s ++ rest)) = some (.string s, rest) := by
  cases announced with
  | inByte form => simp [value, form, textOf_encode]
  | inWord form room => simp [value, form, sizedText_encode s rest room]

end Texts

/-! ## Scalars in a byte, floating-point numbers -/

section Scalars

variable (rest : Bytes) (fuel depth : Nat)

theorem value_complete {first : UInt8} {d : Data} (form : Form.ofByte first = .complete d) :
    value (fuel + 1) depth (first :: rest) = some (d, rest) := by
  rw [value, form]

/-- A floating-point number is read bit by bit. -/
theorem value_double (x : Binary64) :
    value (fuel + 1) depth (0xCB :: Word.bytes 8 x.bits.toNat ++ rest) = some (.float x, rest) := by
  have form : Form.ofByte 0xCB = .double := rfl
  have room : x.bits.toNat < 256 ^ 8 := x.bits.toNat_lt
  simp [value, form, Word.read?_bytes_append room]

end Scalars

/-! ## Lists and maps -/

section Containers

variable {n : Nat} {header : Bytes} (rest : Bytes) (fuel depth : Nat)

theorem value_list (announced : Announces .list .listOf n header) :
    value (fuel + 1) depth (header ++ rest) = list fuel depth n rest := by
  cases announced with
  | inByte form => simp [value, form]
  | inWord form room => simp [value, form, Word.read?_bytes_append room]

theorem value_map (announced : Announces .map .mapOf n header) :
    value (fuel + 1) depth (header ++ rest) = map fuel depth n rest := by
  cases announced with
  | inByte form => simp [value, form]
  | inWord form room => simp [value, form, Word.read?_bytes_append room]

end Containers

/-! ## Integers -/

section Integers

variable {first : UInt8} {width : Nat} (rest : Bytes) (fuel depth : Nat)

theorem value_unsigned {n : Nat} (form : Form.ofByte first = .unsigned width) (room : n < 256 ^ width) :
    value (fuel + 1) depth (first :: Word.bytes width n ++ rest) =
      some (.ofUInt64 (UInt64.ofNat n), rest) := by
  simp [value, form, Word.read?_bytes_append room]

/-- A number that is not negative is read in its preferred form. -/
theorem value_natural {n : Nat} (room : n < 2 ^ 64) :
    value (fuel + 1) depth (natural n ++ rest) = some (.ofUInt64 (UInt64.ofNat n), rest) := by
  unfold natural
  split_ifs with small byte word long
  · rw [Data.ofUInt64_of_lt (by omega)]
    exact value_complete rest fuel depth (ofByte_complete small)
  · exact value_unsigned rest fuel depth rfl byte
  · exact value_unsigned rest fuel depth rfl word
  · exact value_unsigned rest fuel depth rfl long
  · exact value_unsigned rest fuel depth rfl room

/-- A negative number is read from the word of its two's complement. -/
theorem value_signed {i : Int} {n : Nat} (form : Form.ofByte first = .signed width)
    (room : n < 256 ^ width) (complement : signed width n = i) :
    value (fuel + 1) depth (first :: Word.bytes width n ++ rest) = some (.int (Int64.ofInt i), rest) := by
  simp [value, form, Word.read?_bytes_append room, complement]

/-- An integer is read as it was. -/
theorem value_integer (i : Int64) :
    value (fuel + 1) depth (integer i.toInt ++ rest) = some (.int i, rest) := by
  have low : -2 ^ 63 ≤ i.toInt := Int64.le_toInt i
  have high : i.toInt < 2 ^ 63 := Int64.toInt_lt i
  suffices h : value (fuel + 1) depth (integer i.toInt ++ rest) =
      some (.int (Int64.ofInt i.toInt), rest) by
    rwa [Int64.ofInt_toInt] at h
  generalize i.toInt = j at low high ⊢
  unfold integer
  split_ifs with natural tiny byte word long
  · obtain ⟨n, rfl⟩ := Int.eq_ofNat_of_zero_le natural
    rw [Int.toNat_natCast, value_natural rest fuel depth (by omega),
      Data.ofUInt64_of_lt (by omega), Int64.ofInt_eq_ofNat]
  · exact value_complete rest fuel depth (ofByte_negative tiny (by omega))
  · exact value_signed rest fuel depth rfl (by omega) (by rw [signed]; omega)
  · exact value_signed rest fuel depth rfl (by omega) (by rw [signed]; omega)
  · exact value_signed rest fuel depth rfl (by omega) (by rw [signed]; omega)
  · exact value_signed rest fuel depth rfl (by omega) (by rw [signed]; omega)

end Integers

end Troupe.MessagePack
