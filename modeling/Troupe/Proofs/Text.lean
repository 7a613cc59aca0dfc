import Mathlib.Data.String.Basic
import Mathlib.Tactic.SplitIfs
import Troupe.Proofs.Numeral
import Troupe.Text.Utf8

/-!
# The bytes of texts

A text takes the bytes of its characters, and a number takes one byte for each digit.  Of two texts the
smaller one, by the code points of its characters, is also the smaller one by its bytes
(`Text.encode_lt_encode`).
-/

namespace Troupe.Text

/-- Bytes that are read as a text are the ones that are written of it. -/
theorem encode_of_decode? {bytes : Bytes} {s : String} (read : decode? bytes = some s) : encode s = bytes := by
  simp only [decode?, String.fromUTF8?] at read
  split at read
  · cases read
    rfl
  · cases read

/-- Bytes are read as some texts, one by one, exactly if they are the ones that are written of them. -/
theorem mapM_decode?_eq_some_iff {bytes : List Bytes} {texts : List String} :
    bytes.mapM decode? = some texts ↔ bytes = texts.map encode := by
  induction bytes generalizing texts with
  | nil => cases texts <;> simp
  | cons first others ih =>
    rw [List.mapM_cons]
    constructor
    · intro read
      obtain ⟨text, here, further⟩ := Option.bind_eq_some_iff.mp read
      obtain ⟨rest, there, whole⟩ := Option.bind_eq_some_iff.mp further
      obtain rfl : text :: rest = texts := Option.some.inj whole
      rw [List.map_cons, encode_of_decode? here, ih.mp there]
    · intro written
      cases texts with
      | nil => cases written
      | cons text rest =>
        obtain ⟨rfl, there⟩ := List.cons.inj written
        rw [decode?_encode, ih.mpr there]
        rfl

/-- The bytes of a text are those of its characters. -/
theorem encode_eq_flatMap (s : String) : encode s = s.toList.flatMap String.utf8EncodeChar := by
  have bytes : s.toUTF8 = s.toList.utf8Encode := String.utf8Encode_toList.symm
  rw [encode, bytes, List.utf8Encode]
  simp

/-! ## How many there are -/

theorem length_encode (s : String) : (encode s).length = (s.toList.map Char.utf8Size).sum := by
  rw [encode_eq_flatMap, List.length_flatMap]
  congr 1
  simp

theorem length_encode_append (s t : String) :
    (encode (s ++ t)).length = (encode s).length + (encode t).length := by
  rw [length_encode, length_encode, length_encode, String.toList_append, List.map_append, List.sum_append]

/-- A number takes a byte for each digit. -/
theorem length_encode_natural (n : Nat) : (encode (toString n)).length = (Nat.toDigits 10 n).length := by
  have digits : (toString n).toList = Nat.toDigits 10 n := Nat.toList_repr
  have byte : ∀ d < 10, d.digitChar.utf8Size = 1 := by decide
  have ones : (Nat.toDigits 10 n).map Char.utf8Size = List.replicate (Nat.toDigits 10 n).length 1 := by
    refine List.eq_replicate_iff.mpr ⟨List.length_map .., ?_⟩
    intro size among
    obtain ⟨c, listed, rfl⟩ := List.mem_map.mp among
    obtain ⟨d, small, rfl⟩ := Numeral.exists_digitChar_of_mem_toDigits (by decide) listed
    exact byte d small
  rw [length_encode, digits, ones]
  simp

/-- A number that is not zero has no more digits than it counts. -/
theorem length_encode_natural_le {n : Nat} (positive : 0 < n) : (encode (toString n)).length ≤ n := by
  rw [length_encode_natural]
  exact Nat.toDigits_length 10 n n positive (Nat.lt_pow_self (by decide))

/-! ## Their order -/

/-- Whatever follows, a smaller character has the smaller bytes. -/
theorem utf8EncodeChar_append_lt {c d : Char} (before : c < d) (xs ys : Bytes) :
    String.utf8EncodeChar c ++ xs < String.utf8EncodeChar d ++ ys := by
  have smaller : c.val.toNat < d.val.toNat := before
  have bounded : d.val.toNat < 0x110000 := by
    rcases d.valid with low | ⟨-, high⟩
    · exact Nat.lt_trans low (by decide)
    · exact high
  simp only [String.utf8EncodeChar]
  generalize c.val.toNat = m at smaller
  generalize d.val.toNat = n at smaller bounded
  -- The cases are the numbers of bytes of both; no byte exceeds its range, so that none is cut.
  split_ifs <;>
    simp (disch := omega) only [List.cons_append, List.nil_append, List.cons_lt_cons_iff,
      UInt8.lt_iff_toNat_lt, ← UInt8.toNat_inj, UInt8.toNat_ofNat', Nat.mod_eq_of_lt] <;>
    omega

theorem flatMap_utf8EncodeChar_lt {cs ds : List Char} (before : cs < ds) :
    cs.flatMap String.utf8EncodeChar < ds.flatMap String.utf8EncodeChar := by
  induction ds generalizing cs with
  | nil => exact absurd before (List.not_lt_nil cs)
  | cons d ds ih =>
    cases cs with
    | nil =>
      obtain ⟨x, xs, bytes⟩ := List.exists_cons_of_ne_nil (String.utf8EncodeChar_ne_nil (c := d))
      rw [List.flatMap_nil, List.flatMap_cons, bytes]
      exact List.nil_lt_cons _ _
    | cons c cs =>
      rw [List.flatMap_cons, List.flatMap_cons]
      rcases List.cons_lt_cons_iff.mp before with smaller | ⟨rfl, rest⟩
      · exact utf8EncodeChar_append_lt smaller _ _
      · exact List.append_left_lt (ih rest)

/-- Texts are in the order of their bytes. -/
theorem encode_lt_encode {s t : String} : encode s < encode t ↔ s < t := by
  have mono {s t : String} (before : s < t) : encode s < encode t := by
    rw [encode_eq_flatMap, encode_eq_flatMap]
    exact flatMap_utf8EncodeChar_lt (String.lt_iff_toList_lt.mp before)
  refine ⟨fun bytes ↦ ?_, mono⟩
  rcases lt_trichotomy s t with before | rfl | after
  · exact before
  · exact absurd bytes (List.lt_irrefl _)
  · exact absurd bytes (List.lt_asymm (mono after))

theorem encode_le_encode {s t : String} : encode s ≤ encode t ↔ s ≤ t := by
  rw [← List.not_lt, encode_lt_encode, not_lt]

end Troupe.Text
