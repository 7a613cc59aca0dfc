import Mathlib.Tactic.SplitIfs
import Troupe.Json.Read
import Troupe.Json.Write

/-!
# Texts in JSON are read as they were written

Each character is read back from its escape, and a text from its quotes, whatever characters stand behind
it.
-/

namespace Troupe.Json

/-- The code point of a character names it. -/
theorem charOf?_toNat (c : Char) : charOf? c.toNat = some c := by
  have valid : c.toNat.isValidChar := c.valid
  rw [charOf?, dif_pos valid]
  exact congrArg some (Char.ext (UInt32.ofNatLT_toNat c.val))

section Characters

variable {c : Char} (rest : List Char) (fuel : Nat)

/-- The character goes before those that are read after it. -/
theorem textChars_letter {letter : Char} (known : escapeLetter? letter = some c) :
    textChars (fuel + 1) ('\\' :: letter :: rest) =
      (textChars fuel rest).map fun (cs, rest) ↦ (c :: cs, rest) := by
  -- The letter that starts a code point stands for nothing itself.
  have other : letter ≠ 'u' := by
    rintro rfl
    cases known
  cases next : textChars fuel rest <;> simp [textChars, known, next]

/-- Two digits are enough for a control character. -/
theorem natural?_hexDigit :
    ∀ n < 0x20, Numeral.natural? 16 ['0', '0', hexDigit (n / 16), hexDigit (n % 16)] = some n := by
  decide

theorem unicodeEscape?_control (control : c.toNat < 0x20) :
    unicodeEscape? ('0' :: '0' :: hexDigit (c.toNat / 16) :: hexDigit (c.toNat % 16) :: rest) =
      some (c, rest) := by
  have number := natural?_hexDigit c.toNat control
  simp only [unicodeEscape?, hex4?, number, Option.map_some, Option.bind_eq_bind, Option.bind_some]
  rw [if_neg (by omega), charOf?_toNat]
  rfl

/-- A character is read from its escape, in one step. -/
theorem textChars_escapeChar (c : Char) :
    textChars (fuel + 1) (escapeChar c ++ rest) =
      (textChars fuel rest).map fun (cs, rest) ↦ (c :: cs, rest) := by
  unfold escapeChar
  split_ifs with quote backslash backspace tab newline feed ret control
  · exact textChars_letter rest fuel (by rw [quote]; rfl)
  · exact textChars_letter rest fuel (by rw [backslash]; rfl)
  · exact textChars_letter rest fuel (by rw [backspace]; rfl)
  · exact textChars_letter rest fuel (by rw [tab]; rfl)
  · exact textChars_letter rest fuel (by rw [newline]; rfl)
  · exact textChars_letter rest fuel (by rw [feed]; rfl)
  · exact textChars_letter rest fuel (by rw [ret]; rfl)
  · cases next : textChars fuel rest <;> simp [textChars, unicodeEscape?_control rest control, next]
  · cases next : textChars fuel rest <;> simp [textChars, quote, backslash, control, next]

end Characters

/-- The characters of a text are read up to its closing quote. -/
theorem textChars_flatMap (cs rest : List Char) {fuel : Nat} (enough : cs.length < fuel) :
    textChars fuel (cs.flatMap escapeChar ++ '"' :: rest) = some (cs, rest) := by
  induction cs generalizing fuel with
  | nil =>
    obtain ⟨fuel, rfl⟩ := Nat.exists_eq_add_of_lt enough
    simp [textChars]
  | cons c cs ih =>
    obtain ⟨fuel, rfl⟩ : ∃ more, fuel = more + 1 := ⟨fuel - 1, by omega⟩
    rw [List.flatMap_cons, List.append_assoc, textChars_escapeChar,
      ih (by rw [List.length_cons] at enough; omega)]
    rfl

theorem length_le_flatMap_escapeChar (cs : List Char) : cs.length ≤ (cs.flatMap escapeChar).length := by
  have some (c : Char) : 0 < (escapeChar c).length := by
    unfold escapeChar
    split_ifs <;> simp
  induction cs with
  | nil => simp
  | cons c cs ih =>
    rw [List.flatMap_cons, List.length_append, List.length_cons]
    have first := some c
    omega

/-- A text is read after its opening quote. -/
theorem text_flatMap (s : String) (rest : List Char) :
    text (s.toList.flatMap escapeChar ++ '"' :: rest) = some (s, rest) := by
  have enough : s.toList.length < (s.toList.flatMap escapeChar ++ '"' :: rest).length := by
    rw [List.length_append, List.length_cons]
    have few := length_le_flatMap_escapeChar s.toList
    omega
  rw [text, textChars_flatMap _ _ enough]
  simp

end Troupe.Json
