import Mathlib.Data.Nat.Digits.Defs
import Troupe.Decimal.Numeral

/-!
# Digits are read as they were written

A number is read from its digits in any base up to sixteen, whatever the letters that stand for the digits,
if each of them is read as its digit.  So an integer is read from its decimal text, also with a plus before
the digits, and it is told from any text that its own stands in front of, unless digits go on with it.
-/

namespace Troupe.Numeral

variable {base : Nat}

theorem digitsFrom?_append (start : Nat) (cs ds : List Char) :
    digitsFrom? base start (cs ++ ds) = (digitsFrom? base start cs).bind (digitsFrom? base · ds) := by
  induction cs generalizing start with
  | nil => rfl
  | cons c cs ih =>
    simp only [List.cons_append, digitsFrom?, Option.bind_eq_bind]
    cases digitValue? c with
    | none => rfl
    | some d =>
      simp only [Option.bind_some]
      split
      · exact ih _
      · rfl

/-- One digit goes on with a number. -/
theorem digitsFrom?_singleton {c : Char} {d : Nat} (digit : digitValue? c = some d) (small : d < base)
    (start : Nat) : digitsFrom? base start [c] = some (start * base + d) := by
  simp [digitsFrom?, digit, small]

/-- Zeros before a number do not count. -/
theorem digitsFrom?_zeros (positive : 0 < base) (k : Nat) (cs : List Char) :
    digitsFrom? base 0 (List.replicate k '0' ++ cs) = digitsFrom? base 0 cs := by
  induction k with
  | zero => rfl
  | succ k ih =>
    have zero : digitValue? '0' = some 0 := rfl
    simp only [List.replicate_succ, List.cons_append, digitsFrom?, zero, Option.bind_eq_bind,
      Option.bind_some, if_pos positive, Nat.zero_mul, Nat.add_zero]
    exact ih

/-- A number is written with the letters of digits. -/
theorem exists_digitChar_of_mem_toDigits (large : 1 < base) {n : Nat} {c : Char}
    (among : c ∈ Nat.toDigits base n) : ∃ d < base, c = d.digitChar := by
  induction n using Nat.base_induction base large with
  | single m small =>
    rw [Nat.toDigits_of_lt_base small] at among
    exact ⟨m, small, List.mem_singleton.mp among⟩
  | digit m k small positive ih =>
    rw [← Nat.toDigits_append_toDigits large positive small, Nat.toDigits_of_lt_base small] at among
    rcases List.mem_append.mp among with before | last
    · exact ih before
    · exact ⟨k, small, List.mem_singleton.mp last⟩

section Digits

variable {letter : Char → Char} (large : 1 < base)
  (digits : ∀ d < base, digitValue? (letter d.digitChar) = some d)
include large digits

theorem digitsFrom?_toDigits (n : Nat) :
    digitsFrom? base 0 ((Nat.toDigits base n).map letter) = some n := by
  induction n using Nat.base_induction base large with
  | single m small =>
    rw [Nat.toDigits_of_lt_base small, List.map_singleton,
      digitsFrom?_singleton (digits m small) small, Nat.zero_mul, Nat.zero_add]
  | digit m k small positive ih =>
    rw [← Nat.toDigits_append_toDigits large positive small, List.map_append, digitsFrom?_append, ih,
      Nat.toDigits_of_lt_base small, List.map_singleton, Option.bind_some,
      digitsFrom?_singleton (digits k small) small, Nat.mul_comm]

/-- A number is read from its digits, also with zeros before them. -/
theorem natural?_toDigits (n k : Nat) :
    natural? base (List.replicate k '0' ++ (Nat.toDigits base n).map letter) = some n := by
  have read := digitsFrom?_toDigits large digits n
  rw [← digitsFrom?_zeros (Nat.lt_trans Nat.zero_lt_one large) k] at read
  have some : List.replicate k '0' ++ (Nat.toDigits base n).map letter ≠ [] := by
    simp [Nat.toDigits_ne_nil]
  obtain ⟨c, cs, shape⟩ := List.exists_cons_of_ne_nil some
  rw [shape] at read ⊢
  exact read

end Digits

/-! ## Decimal integers -/

theorem isDigit_eq (c : Char) : isDigit c = c.isDigit := by
  simp [isDigit, Char.isDigit, Char.le_def]

theorem isDigit_of_mem_toDigits {c : Char} {n : Nat} (among : c ∈ Nat.toDigits 10 n) :
    isDigit c = true := by
  rw [isDigit_eq]
  exact Nat.isDigit_of_mem_toDigits (by decide) (by decide) among

theorem toList_toString_nat (n : Nat) : (toString n).toList = Nat.toDigits 10 n :=
  Nat.toList_repr

/-- A negative integer is written as a sign and digits. -/
theorem toList_toString_negSucc (m : Nat) :
    (toString (Int.negSucc m)).toList = '-' :: Nat.toDigits 10 (m + 1) := by
  simp [toString, Int.repr, Nat.toList_repr]

/-- Digits are read as they are written. -/
theorem natural?_toDigits_ten (n : Nat) : natural? 10 (Nat.toDigits 10 n) = some n := by
  have each : ∀ d < 10, digitValue? (id d.digitChar) = some d := by decide
  have read := natural?_toDigits (by decide) each n 0
  rwa [List.replicate_zero, List.nil_append, List.map_id] at read

/-- Only what starts with a minus is split into a minus and a rest. -/
theorem splitSign_fst_eq_minus {cs : List Char} : (splitSign cs).1 = some true ↔ cs.head? = some '-' := by
  cases cs with
  | nil => simp [splitSign]
  | cons c rest =>
    by_cases minus : c = '-'
    · simp [minus, splitSign]
    · by_cases plus : c = '+' <;> simp [minus, plus, splitSign]

/-- Digits start with no sign. -/
theorem splitSign_toDigits (n : Nat) : splitSign (Nat.toDigits 10 n) = (none, Nat.toDigits 10 n) := by
  obtain ⟨c, ds, first⟩ := List.exists_cons_of_ne_nil (Nat.toDigits_ne_nil (n := n) (b := 10))
  have digit : isDigit c = true := isDigit_of_mem_toDigits (first ▸ List.mem_cons_self)
  rw [first, splitSign]
  · rintro rest ⟨⟩
    cases digit
  · rintro rest ⟨⟩
    cases digit

/-- The text of an integer starts with a minus only if the integer is negative. -/
theorem neg_of_head?_toString {i : Int} (minus : (toString i).toList.head? = some '-') : i < 0 := by
  cases i with
  | ofNat n =>
    have shape : (toString (Int.ofNat n)).toList = Nat.toDigits 10 n := toList_toString_nat n
    rw [shape, ← splitSign_fst_eq_minus, splitSign_toDigits] at minus
    cases minus
  | negSucc m => exact Int.negSucc_lt_zero m

/-- An integer is read from its text. -/
theorem integer?_toString (i : Int) : integer? 10 (toString i).toList = some i := by
  cases i with
  | ofNat n =>
    have shape : (toString (Int.ofNat n)).toList = Nat.toDigits 10 n := toList_toString_nat n
    rw [shape, integer?, splitSign_toDigits]
    dsimp only
    rw [natural?_toDigits_ten]
    rfl
  | negSucc m =>
    rw [toList_toString_negSucc, integer?, splitSign]
    dsimp only
    rw [natural?_toDigits_ten]
    rfl

/-- A number is read from its text with a plus before it. -/
theorem integer?_plus_toString (n : Nat) : integer? 10 ('+' :: (toString n).toList) = some (n : Int) := by
  rw [toList_toString_nat, integer?, splitSign]
  dsimp only
  rw [natural?_toDigits_ten]
  rfl

/-! ## Integers before other text -/

/-- The character is one of those that integers are written with. -/
def isSignOrDigit (c : Char) : Bool := c == '-' || isDigit c

/-- No integer goes on with the text. -/
def EndsInteger (rest : List Char) : Prop := ∀ c ∈ rest.head?, isSignOrDigit c = false

variable {m n : Int} {c : Char} {rest more : List Char}

theorem endsInteger_nil : EndsInteger [] := nofun

theorem endsInteger_cons (other : isSignOrDigit c = false) (rest : List Char) : EndsInteger (c :: rest) := by
  rintro d same
  obtain rfl := Option.some.inj same
  exact other

theorem isSignOrDigit_of_mem_toDigits {n : Nat} (among : c ∈ Nat.toDigits 10 n) : isSignOrDigit c = true := by
  rw [isSignOrDigit, isDigit_of_mem_toDigits among, Bool.or_true]

theorem isSignOrDigit_of_mem_toString (among : c ∈ (toString n).toList) : isSignOrDigit c = true := by
  cases n with
  | ofNat k =>
    have shape : (toString (Int.ofNat k)).toList = Nat.toDigits 10 k := toList_toString_nat k
    rw [shape] at among
    exact isSignOrDigit_of_mem_toDigits among
  | negSucc k =>
    rw [toList_toString_negSucc] at among
    rcases List.mem_cons.mp among with rfl | digit
    · rfl
    · exact isSignOrDigit_of_mem_toDigits digit

/-- The text of an integer is all of its kind that stands in front. -/
theorem takeWhile_toString_append (n : Int) (ends : EndsInteger rest) :
    ((toString n).toList ++ rest).takeWhile isSignOrDigit = (toString n).toList := by
  have behind : rest.takeWhile isSignOrDigit = [] := by
    cases rest with
    | nil => rfl
    | cons c rest => rw [List.takeWhile_cons_of_neg (by simp [ends c rfl])]
  rw [List.takeWhile_append_of_pos fun c among ↦ isSignOrDigit_of_mem_toString among, behind, List.append_nil]

/-- An integer is told from its text, whatever follows. -/
theorem toString_append_inj (endsRest : EndsInteger rest) (endsMore : EndsInteger more)
    (same : (toString m).toList ++ rest = (toString n).toList ++ more) : m = n ∧ rest = more := by
  have texts : (toString m).toList = (toString n).toList := by
    rw [← takeWhile_toString_append m endsRest, same, takeWhile_toString_append n endsMore]
  have numbers : some m = some n := by rw [← integer?_toString, texts, integer?_toString]
  rw [texts] at same
  exact ⟨Option.some.inj numbers, List.append_cancel_left same⟩

theorem exists_toString_eq_cons (n : Int) :
    ∃ c cs, (toString n).toList = c :: cs ∧ isSignOrDigit c = true := by
  cases text : (toString n).toList with
  | nil =>
    have read := integer?_toString n
    rw [text] at read
    cases read
  | cons c cs => exact ⟨c, cs, rfl, isSignOrDigit_of_mem_toString (text ▸ List.mem_cons_self)⟩

end Troupe.Numeral
