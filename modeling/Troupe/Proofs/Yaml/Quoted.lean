import Troupe.Proofs.Numeral
import Troupe.Proofs.Yaml.Style

/-!
# Quoted scalars are read as they were written

What stands between quotes is read word by word, and what stands between two words is a gap: spaces on one
line, or line ends and the indentation of the next line.  In double quotes every line end is written as an
escape, so there is one line (`quotedScalar_line`).  In single quotes line ends stand as they are.  None of
them is a line feed, as a text with line feeds is no text for single quotes, and so none is folded to a space
(`fold_breaks`, `quotedScalar_lines`).
-/

namespace Troupe.Yaml

/-! ## Escapes -/

/-- Upper-case letters are digits too. -/
theorem digitValue?_toUpper : ∀ d < 16, Numeral.digitValue? (Char.toUpper d.digitChar) = some d := by
  decide

theorem natural?_hexDigits (width n : Nat) : Numeral.natural? 16 (hexDigits width n) = some n :=
  Numeral.natural?_toDigits (by decide) digitValue?_toUpper n _

theorem length_hexDigits {width n : Nat} (positive : 0 < width) (fits : n < 16 ^ width) :
    (hexDigits width n).length = width := by
  have few := (Nat.length_toDigits_le_iff (b := 16) (by decide) positive).mpr fits
  simp only [hexDigits, List.length_append, List.length_replicate, List.length_map]
  omega

/-- A character is read from its code point. -/
theorem escaped?_hexDigits {letter : Char} {width : Nat} (c : Char) (tail : List Char)
    (other : escapeLetter? letter = none) (stated : escapeWidth? letter = some width)
    (positive : 0 < width) (fits : c.toNat < 16 ^ width) :
    escaped? (letter :: hexDigits width c.toNat ++ tail) =
      some (c, (letter :: hexDigits width c.toNat).length) := by
  have length := length_hexDigits positive fits
  have taken : (hexDigits width c.toNat ++ tail).take width = hexDigits width c.toNat := by
    rw [List.take_append_of_le_length (by omega), List.take_of_length_le (by omega)]
  have valid : c.toNat.isValidChar := c.valid
  rw [List.cons_append, escaped?, other]
  dsimp only
  rw [stated, Option.bind_eq_bind, Option.bind_some, taken, if_pos length, natural?_hexDigits,
    Option.bind_some, dif_pos valid, List.length_cons, length]
  exact congrArg some (Prod.ext (Char.ext (UInt32.ofNatLT_toNat c.val)) rfl)

/-- A character is read from its escape. -/
theorem escaped?_escape (c : Char) (tail : List Char) :
    escaped? (escape c ++ tail) = some (c, (escape c).length) := by
  have named {n : Nat} (code : c.toNat = n) : c = Char.ofNat n := by rw [← code, Char.ofNat_toNat]
  unfold escape
  split
  case h_16 =>
    have bound : c.toNat < 16 ^ 8 := c.val.toNat_lt
    split_ifs with byte short
    · exact escaped?_hexDigits c tail rfl rfl (by decide) byte
    · exact escaped?_hexDigits c tail rfl rfl (by decide) short
    · exact escaped?_hexDigits c tail rfl rfl (by decide) bound
  all_goals
    next code =>
      rw [named code]
      rfl

/-- The characters of an escape are letters, digits and marks. -/
def isGraphic (c : Char) : Bool := isPrintable c && !isBreak c && c != ' '

theorem isGraphic_iff {c : Char} :
    isGraphic c = true ↔ isPrintable c = true ∧ isBreak c = false ∧ c ≠ ' ' := by
  simp [isGraphic, and_assoc]

theorem isGraphic_of_mem_hexDigits {width n : Nat} :
    ∀ d ∈ hexDigits width n, isGraphic d = true := by
  intro d among
  have each : ∀ d < 16, isGraphic (Char.toUpper d.digitChar) = true := by decide
  rcases List.mem_append.mp among with zero | digit
  · rw [List.eq_of_mem_replicate zero]
    rfl
  · obtain ⟨c, listed, rfl⟩ := List.mem_map.mp digit
    obtain ⟨d, small, rfl⟩ := Numeral.exists_digitChar_of_mem_toDigits (by decide) listed
    exact each d small

theorem isGraphic_of_mem_escape (c : Char) : ∀ d ∈ escape c, isGraphic d = true := by
  have letter (a : Char) (cs : List Char) (first : isGraphic a = true)
      (others : ∀ d ∈ cs, isGraphic d = true) : ∀ d ∈ a :: cs, isGraphic d = true :=
    List.forall_mem_cons.mpr ⟨first, others⟩
  unfold escape
  split
  case h_16 =>
    split_ifs
    · exact letter 'x' _ rfl isGraphic_of_mem_hexDigits
    · exact letter 'u' _ rfl isGraphic_of_mem_hexDigits
    · exact letter 'U' _ rfl isGraphic_of_mem_hexDigits
  all_goals exact List.all_eq_true.mp rfl

theorem escape_ne_nil (c : Char) : escape c ≠ [] := by
  unfold escape
  split
  case h_16 => split_ifs <;> exact List.cons_ne_nil _ _
  all_goals exact List.cons_ne_nil _ _

/-! ## Characters between quotes -/

/-- The mark around a scalar. -/
def quoteMark (single : Bool) : Char := if single then '\'' else '"'

/-- What is written for a character between quotes. -/
def quoted (single : Bool) (c : Char) : List Char :=
  if single then (if c = '\'' then ['\'', '\''] else [c])
  else if !isPrintable c || isBreak c || c == '"' || c == '\\' then '\\' :: escape c else [c]

/-- The character is part of a word: it is no space, and in single quotes it needs no escape and ends no
line. -/
def InWord (single : Bool) (c : Char) : Prop :=
  c ≠ ' ' ∧ (single = true → isPrintable c = true ∧ isBreak c = false)

section Words

variable {single : Bool} {p : Place} {tail : List Char} {fuel : Nat}

/-- What is written for a character ends no line. -/
theorem inside_quoted {c : Char} (inWord : InWord single c) : ∀ d ∈ quoted single c, isBreak d = false := by
  intro d among
  rw [quoted] at among
  cases single with
  | true =>
    rw [if_pos rfl] at among
    split at among
    · have quote : d = '\'' := by simpa using among
      rw [quote]
      rfl
    · rw [List.mem_singleton.mp among]
      exact (inWord.2 rfl).2
  | false =>
    rw [if_neg (by decide)] at among
    split at among
    · rcases List.mem_cons.mp among with rfl | later
      · rfl
      · exact (isGraphic_iff.mp (isGraphic_of_mem_escape c d later)).2.1
    · next raw =>
      simp only [Bool.or_eq_true, not_or] at raw
      rw [List.mem_singleton.mp among]
      simpa using raw.1.1.2

/-- A character is read from what is written for it. -/
theorem quotedWord_quoted {c : Char} (inWord : InWord single c) (here : p.rest = quoted single c ++ tail) :
    quotedWord single (fuel + 1) p = (quotedWord single fuel (p.past (quoted single c))).map
      fun (word, rest) ↦ (c :: word, rest) := by
  rw [Place.past_of_line here (inside_quoted inWord)]
  rw [quoted] at here ⊢
  cases single with
  | true =>
    obtain ⟨printable, inside⟩ := inWord.2 rfl
    have blank := isBlank_eq_false printable inWord.1
    rw [if_pos rfl] at here ⊢
    split at here
    · next quote =>
      subst quote
      simp [quotedWord, here, isBlank, isBreak]
    · next other => simp [quotedWord, here, blank, inside, other]
  | false =>
    rw [if_neg (by decide)] at here ⊢
    split at here
    · next special =>
      rw [if_pos special]
      have next : (p.advance 1).rest = escape c ++ tail := by
        rw [Place.advance, here]
        rfl
      have letter : (p.advance 1).newline? = none := by
        obtain ⟨d, ds, shape⟩ := List.exists_cons_of_ne_nil (escape_ne_nil c)
        obtain ⟨printable, inside, space⟩ :=
          isGraphic_iff.mp (isGraphic_of_mem_escape c d (shape ▸ List.mem_cons_self))
        refine Place.newline?_of_visible ?_
        rw [next, shape]
        exact visible_cons _ (isBlank_eq_false printable space) inside
      simp [quotedWord, here, isBlank, isBreak, letter, escaped?_escape, Option.map_eq_bind]
    · next raw =>
      rw [if_neg raw]
      simp only [Bool.or_eq_true, Bool.not_eq_true', Bool.not_eq_false, beq_iff_eq, not_or] at raw
      obtain ⟨⟨⟨printable, inside⟩, quote⟩, backslash⟩ := raw
      simp [quotedWord, here, isBlank_eq_false printable inWord.1, inside, quote, backslash]

/-- No word goes on with what follows. -/
def EndsQuoted (single : Bool) (tail : List Char) : Prop :=
  ∀ fuel (p : Place), p.rest = tail → quotedWord single fuel p = some ([], .plain, p)

theorem endsQuoted_of_gap {c : Char} (rest : List Char) (gap : (isBlank c || isBreak c) = true) :
    EndsQuoted single (c :: rest) := by
  intro fuel p here
  cases fuel with
  | zero => rfl
  | succ fuel =>
    rw [quotedWord, here]
    exact if_pos gap

/-- The mark ends a word, if it does not stand for an apostrophe. -/
theorem endsQuoted_mark {rest : List Char} (apart : rest.head? ≠ some '\'') :
    EndsQuoted single (quoteMark single :: rest) := by
  intro fuel p here
  cases fuel with
  | zero => rfl
  | succ fuel =>
    rw [quotedWord, here]
    cases single with
    | true => simp [quoteMark, isBlank, isBreak, apart]
    | false => simp [quoteMark, isBlank, isBreak]

/-- A word is read. -/
theorem quotedWord_word {word : List Char} (inWord : ∀ c ∈ word, InWord single c)
    (here : p.rest = word.flatMap (quoted single) ++ tail) (ends : EndsQuoted single tail)
    (enough : word.length ≤ fuel) :
    quotedWord single fuel p = some (word, .plain, p.past (word.flatMap (quoted single))) := by
  induction word generalizing p fuel with
  | nil => exact ends fuel p here
  | cons c word ih =>
    rw [List.length_cons] at enough
    obtain ⟨fuel, rfl⟩ : ∃ more, fuel = more + 1 := ⟨fuel - 1, by omega⟩
    rw [List.flatMap_cons, List.append_assoc] at here
    rw [quotedWord_quoted (inWord c List.mem_cons_self) here,
      ih (fun d among ↦ inWord d (List.mem_cons_of_mem _ among)) (Place.rest_past here) (by omega),
      List.flatMap_cons, Place.past_append]
    rfl

/-- What is done behind a word. -/
def quotedOn (single : Bool) (fuel : Nat) (text : List Char) (p : Place) : Option (List Char × Place) :=
  match p.rest with
  | [] => none
  | c :: _ =>
    if c = quoteMark single then some (text, p.advance 1)
    else (gap p.rest.length (-1) (.blanks []) p).bind fun (g, p) ↦
      quotedFrom single fuel (text ++ g.fold) p

theorem length_le_flatMap_quoted (single : Bool) (cs : List Char) :
    cs.length ≤ (cs.flatMap (quoted single)).length := by
  have some (c : Char) : 0 < (quoted single c).length := by
    rw [quoted]
    split_ifs <;> exact Nat.zero_lt_succ _
  induction cs with
  | nil => exact Nat.le_refl 0
  | cons c cs ih =>
    rw [List.flatMap_cons, List.length_append, List.length_cons]
    have first := some c
    omega

/-- A word is added to what was read. -/
theorem quotedFrom_word {word : List Char} (inWord : ∀ c ∈ word, InWord single c)
    (here : p.rest = word.flatMap (quoted single) ++ tail) (ends : EndsQuoted single tail)
    (aside : 0 < p.column) (text : List Char) :
    quotedFrom single (fuel + 1) text p =
      quotedOn single fuel (text ++ word) (p.past (word.flatMap (quoted single))) := by
  have unmarked : p.atDocumentMark = false := by
    simp [Place.atDocumentMark, Nat.ne_of_gt aside]
  have enough : word.length ≤ p.rest.length := by
    rw [here, List.length_append]
    exact Nat.le_add_right_of_le (length_le_flatMap_quoted single word)
  rw [quotedFrom, unmarked, if_neg (by decide), quotedWord_word inWord here ends enough]
  simp only [Option.bind_eq_bind, Option.bind_some, quotedOn, Place.rest_past here]
  rfl

/-! ## Lines between quotes -/

theorem visible_quoted {c : Char} (inWord : InWord single c) (tail : List Char) :
    Visible (quoted single c ++ tail) := by
  rw [quoted]
  cases single with
  | true =>
    obtain ⟨printable, inside⟩ := inWord.2 rfl
    rw [if_pos rfl]
    split
    · exact visible_cons _ rfl rfl
    · exact visible_cons _ (isBlank_eq_false printable inWord.1) inside
  | false =>
    rw [if_neg (by decide)]
    split
    · exact visible_cons _ rfl rfl
    · next raw =>
      simp only [Bool.or_eq_true, Bool.not_eq_true', Bool.not_eq_false, beq_iff_eq, not_or,
        Bool.not_eq_true] at raw
      exact visible_cons _ (isBlank_eq_false raw.1.1.1 inWord.1) raw.1.1.2

theorem doubleBody_eq (cs : List Char) : doubleBody cs = cs.flatMap (quoted false) := rfl

theorem flatMap_quoted_spaces (single : Bool) (n : Nat) : (spaces n).flatMap (quoted single) = spaces n := by
  induction n with
  | zero => rfl
  | succ n ih =>
    rw [spaces_succ, List.flatMap_cons, ih]
    cases single <;> rfl

/-- After some spaces comes another word, or none. -/
theorem quotedOn_spaces {n : Nat} (here : p.rest = spaces (n + 1) ++ tail) (visible : Visible tail)
    (text : List Char) :
    quotedOn single fuel text p =
      quotedFrom single fuel (text ++ spaces (n + 1)) (p.past (spaces (n + 1))) := by
  have enough : n + 1 ≤ p.rest.length := by
    rw [here, List.length_append, length_spaces]
    omega
  have passed := @gap_spaces _ _ (-1) _ _ here visible enough (.blanks [])
  have other : ' ' ≠ quoteMark single := by cases single <;> decide
  rw [quotedOn, passed, here, spaces_succ]
  simp only [List.cons_append, if_neg other]
  rfl

/-- A line is read word after word. -/
theorem quotedFrom_line {line : List Char} (inLine : ∀ c ∈ line, c ≠ ' ' → InWord single c)
    (here : p.rest = line.flatMap (quoted single) ++ tail) (ends : EndsQuoted single tail)
    (visible : line.getLast? = some ' ' → Visible tail) (aside : 0 < p.column)
    (enough : line.length < fuel) (text : List Char) :
    ∃ fuel', fuel ≤ fuel' + line.length + 1 ∧ quotedFrom single fuel text p =
      quotedOn single fuel' (text ++ line) (p.past (line.flatMap (quoted single))) := by
  induction size : line.length using Nat.strongRecOn generalizing line p fuel text with
  | ind m ih =>
    obtain ⟨fuel, rfl⟩ : ∃ more, fuel = more + 1 := ⟨fuel - 1, by omega⟩
    obtain ⟨word, n, rest, rfl, solid, starts, last⟩ := exists_word_spaces line
    have inWord : ∀ c ∈ word, InWord single c := fun c among ↦
      inLine c (List.mem_append_left _ among) (solid c among)
    rw [List.flatMap_append, List.append_assoc] at here
    cases n with
    | zero =>
      obtain rfl := last rfl
      refine ⟨fuel, by omega, ?_⟩
      have all : word ++ (spaces 0 ++ []) = word := by simp [spaces]
      rw [all]
      exact quotedFrom_word inWord here ends aside text
    | succ n =>
      have lengths : (word ++ (spaces (n + 1) ++ rest)).length = word.length + (n + 1) + rest.length := by
        simp only [List.length_append, length_spaces, Nat.add_assoc]
      rw [List.flatMap_append, flatMap_quoted_spaces, List.append_assoc] at here
      have stops : EndsQuoted single (spaces (n + 1) ++ (rest.flatMap (quoted single) ++ tail)) :=
        endsQuoted_of_gap _ rfl
      have there := Place.rest_past here
      have next : Visible (rest.flatMap (quoted single) ++ tail) := by
        cases rest with
        | nil =>
          refine visible ?_
          rw [List.append_nil, spaces, List.replicate_succ', ← List.append_assoc, List.getLast?_concat]
        | cons c rest =>
          rw [List.flatMap_cons, List.append_assoc]
          exact visible_quoted (inLine c (by simp) (starts c rfl)) _
      have column : 0 < ((p.past (word.flatMap (quoted single))).past (spaces (n + 1))).column := by
        rw [Place.column_past_of_line _ not_isBreak_of_mem_spaces, length_spaces]
        omega
      obtain ⟨fuel', bound, read⟩ := ih rest.length (by omega)
        (fun c among ↦ inLine c (by simp [among])) (Place.rest_past there)
        (fun space ↦ visible (by rw [List.getLast?_append, List.getLast?_append, space]; rfl)) column
        (show rest.length < fuel by omega) (text ++ word ++ spaces (n + 1)) rfl
      refine ⟨fuel', by omega, ?_⟩
      rw [quotedFrom_word inWord here stops aside, quotedOn_spaces there next, read, List.flatMap_append,
        List.flatMap_append, flatMap_quoted_spaces, Place.past_append, Place.past_append]
      simp only [List.append_assoc]

theorem quotedOn_mark (here : p.rest = quoteMark single :: tail) (text : List Char) :
    quotedOn single fuel text p = some (text, p.past [quoteMark single]) := by
  have line : isBreak (quoteMark single) = false := by cases single <;> rfl
  rw [quotedOn, here]
  simp [Place.past, line]

/-- A scalar on one line is read up to its mark. -/
theorem quotedScalar_line {line : List Char} (inLine : ∀ c ∈ line, c ≠ ' ' → InWord single c)
    (here : p.rest = quoteMark single :: (line.flatMap (quoted single) ++ quoteMark single :: tail))
    (apart : tail.head? ≠ some '\'') :
    quotedScalar single p = some (String.ofList line,
      p.past (quoteMark single :: (line.flatMap (quoted single) ++ [quoteMark single]))) := by
  have word : isBlank (quoteMark single) = false := by cases single <;> rfl
  have inside : isBreak (quoteMark single) = false := by cases single <;> rfl
  have next : (p.advance 1).rest = line.flatMap (quoted single) ++ quoteMark single :: tail := by
    rw [Place.advance, here]
    rfl
  have aside : 0 < (p.advance 1).column := Nat.succ_pos _
  have enough : line.length < p.rest.length + 1 := by
    have few := length_le_flatMap_quoted single line
    rw [here, List.length_cons, List.length_append]
    omega
  obtain ⟨fuel', -, read⟩ := quotedFrom_line inLine next (endsQuoted_mark apart)
    (fun _ ↦ visible_cons _ word inside) aside enough []
  have first : p.advance 1 = p.past [quoteMark single] := by rw [Place.past, inside]; rfl
  rw [quotedScalar, read, quotedOn_mark (Place.rest_past next), first, ← Place.past_append,
    ← Place.past_append]
  rfl

end Words

/-! ## Lines in single quotes -/

section Lines

variable {indent : Nat} {p : Place} {cs tail : List Char}

theorem singleBody_line {line : List Char} (inside : ∀ c ∈ line, isBreak c = false) (rest : List Char) :
    singleBody indent false (line ++ rest) =
      line.flatMap (quoted true) ++ singleBody indent false rest := by
  induction line with
  | nil => rfl
  | cons c line ih =>
    have more := ih fun d among ↦ inside d (List.mem_cons_of_mem _ among)
    simp [singleBody, inside c List.mem_cons_self, more, quoted]

theorem singleBody_breaks {bs : List Char} (ends : ∀ b ∈ bs, isBreak b = true) (rest : List Char) :
    singleBody indent true (bs ++ rest) = bs ++ singleBody indent true rest := by
  induction bs with
  | nil => rfl
  | cons b bs ih =>
    have more := ih fun d among ↦ ends d (List.mem_cons_of_mem _ among)
    simp [singleBody, ends b List.mem_cons_self, more]

theorem singleBody_indented {rest : List Char} (inside : ∀ c ∈ rest.head?, isBreak c = false) :
    singleBody indent true rest = spaces indent ++ singleBody indent false rest := by
  cases rest with
  | nil => simp [singleBody]
  | cons c rest => simp [singleBody, inside c rfl]

/-- Behind the ends of a line the next one is indented. -/
theorem singleBody_next {b : Char} {bs rest : List Char} (ends : ∀ c ∈ b :: bs, isBreak c = true)
    (starts : ∀ c ∈ rest.head?, isBreak c = false) :
    singleBody indent false (b :: bs ++ rest) = b :: bs ++ spaces indent ++ singleBody indent false rest := by
  rw [List.cons_append, singleBody, if_pos (ends b List.mem_cons_self),
    singleBody_breaks (fun c among ↦ ends c (List.mem_cons_of_mem _ among)), singleBody_indented starts,
    List.append_assoc, List.cons_append]

/-- Behind the end of a line no spaces are lost, as the text has none there. -/
theorem visible_singleBody {before : Option Char} {rest : List Char} (along : Along Singly before rest)
    (after : before.any isBreak = true) (starts : ∀ c ∈ rest.head?, isBreak c = false) (tail : List Char) :
    Visible (singleBody indent false rest ++ '\'' :: tail) := by
  cases rest with
  | nil => exact visible_cons _ rfl rfl
  | cons c rest =>
    have word : InWord true c := ⟨along.1.starts after, fun _ ↦ ⟨along.1.printable, starts c rfl⟩⟩
    have body := @singleBody_line indent [c] (by simpa using starts c rfl) rest
    rw [List.singleton_append] at body
    rw [body, List.flatMap_singleton, List.append_assoc]
    exact visible_quoted word _

theorem length_le_singleBody (indent : Nat) (atStart : Bool) (cs : List Char) :
    cs.length ≤ (singleBody indent atStart cs).length := by
  induction cs generalizing atStart with
  | nil => exact Nat.zero_le _
  | cons c cs ih =>
    rw [singleBody, List.length_cons]
    split
    · rw [List.length_cons]
      exact Nat.succ_le_succ (ih true)
    · have more := ih false
      have some : 0 < (if c = '\'' then ['\'', '\''] else [c]).length := by
        split <;> exact Nat.succ_pos _
      simp only [List.length_append]
      omega

/-- A line end that counts as itself. -/
structure Counts (b : Char) : Prop where
  /-- it needs no escape -/
  printable : isPrintable b = true
  /-- it ends a line -/
  ends : isBreak b = true
  /-- it is no line feed -/
  other : b ≠ '\n'

/-- Line ends in a text without line feeds all count. -/
theorem fold_breaks {b : Char} (counts : Counts b) (bs : List Char) :
    Gap.fold (.breaks (some b) bs) = b :: bs := by
  simp [Gap.fold, counts.other]

/-- After some line ends comes another line. -/
theorem quotedOn_breaks {b : Char} {bs : List Char} (counts : ∀ c ∈ b :: bs, Counts c)
    (here : p.rest = b :: (bs ++ (spaces indent ++ tail))) (visible : Visible tail) (fuel : Nat)
    (text : List Char) :
    quotedOn true fuel text p =
      quotedFrom true fuel (text ++ b :: bs) (p.past (b :: bs ++ spaces indent)) := by
  have first := counts b List.mem_cons_self
  have others : ∀ c ∈ bs, isBreak c = true ∧ c ≠ '\r' := fun c among ↦
    have here := counts c (List.mem_cons_of_mem _ among)
    ⟨here.ends, (ne_of_isPrintable here.printable).2⟩
  have shows : bs.map shown = bs := by
    calc bs.map shown = bs.map id := List.map_congr_left fun c among ↦
          shown_of_isPrintable (counts c (List.mem_cons_of_mem _ among)).printable (others c among).1
      _ = bs := List.map_id bs
  have next : (p.past [b]).rest = bs ++ (spaces indent ++ tail) := Place.rest_past here
  have enough : bs.length + indent ≤ (bs ++ (spaces indent ++ tail)).length := by
    simp only [List.length_append, length_spaces]
    omega
  have passed := @gap_breaks _ _ (-1) _ _ _ others next visible enough (some b) []
  rw [shows, List.nil_append, ← Place.past_append] at passed
  have step : gap p.rest.length (-1) (.blanks []) p =
      some (.breaks (some b) bs, p.past (b :: bs ++ spaces indent)) := by
    rw [here, List.length_cons, gap, here]
    dsimp only
    rw [isBlank_of_isBreak first.ends, if_neg (by decide),
      Place.newline?_of_isBreak here first.ends (ne_of_isPrintable first.printable).2,
      shown_of_isPrintable first.printable first.ends]
    exact passed
  have apart : b ≠ quoteMark true := by
    rintro rfl
    exact absurd first.ends (by decide)
  rw [quotedOn, step, here]
  simp only [if_neg apart, Option.bind_some, fold_breaks first]

/-- The last line is read up to the mark. -/
theorem quotedFrom_last {line : List Char} (inLine : ∀ c ∈ line, c ≠ ' ' → InWord true c)
    (here : p.rest = line.flatMap (quoted true) ++ '\'' :: tail) (apart : tail.head? ≠ some '\'')
    (aside : 0 < p.column) {fuel : Nat} (enough : line.length < fuel) (text : List Char) :
    quotedFrom true fuel text p = some (text ++ line, p.past (line.flatMap (quoted true) ++ ['\''])) := by
  have ends : EndsQuoted true ('\'' :: tail) := endsQuoted_mark apart
  obtain ⟨fuel', -, read⟩ := quotedFrom_line inLine here ends (fun _ ↦ visible_cons _ rfl rfl) aside enough text
  have there : (p.past (line.flatMap (quoted true))).rest = quoteMark true :: tail := Place.rest_past here
  rw [read, quotedOn_mark there, ← Place.past_append]
  rfl

/-- Lines are read one after the other. -/
theorem quotedFrom_lines {before : Option Char} (along : Along Singly before cs) (feed : '\n' ∉ cs)
    (indented : 0 < indent) (here : p.rest = singleBody indent false cs ++ '\'' :: tail)
    (apart : tail.head? ≠ some '\'') (aside : 0 < p.column) {fuel : Nat} (enough : cs.length < fuel)
    (text : List Char) :
    quotedFrom true fuel text p =
      some (text ++ cs, p.past (singleBody indent false cs ++ ['\''])) := by
  induction size : cs.length using Nat.strongRecOn generalizing before cs p fuel text with
  | ind m ih =>
    obtain ⟨line, rest, rfl, inside, stops⟩ := exists_run (!isBreak ·) cs
    obtain ⟨bs, rest, rfl, ends, starts⟩ := exists_run isBreak rest
    replace inside : ∀ c ∈ line, isBreak c = false := fun c among ↦ by simpa using inside c among
    have printable := along.forall_mem (P := fun c ↦ isPrintable c = true) fun _ _ _ h ↦ h.printable
    have inLine : ∀ c ∈ line, c ≠ ' ' → InWord true c := fun c among space ↦
      ⟨space, fun _ ↦ ⟨printable c (List.mem_append_left _ among), inside c among⟩⟩
    rw [singleBody_line inside] at here ⊢
    cases bs with
    | nil =>
      obtain rfl : rest = [] := by
        cases rest with
        | nil => rfl
        | cons c rest =>
          have last := starts c rfl
          simpa [last] using stops c rfl
      have bare : singleBody indent false [] = [] := rfl
      simp only [List.append_nil, bare] at here enough ⊢
      exact quotedFrom_last inLine here apart aside enough text
    | cons b bs =>
      have counts : ∀ c ∈ b :: bs, Counts c := fun c among ↦
        ⟨printable c (by simp only [List.mem_append]; tauto), ends c among,
          fun same ↦ feed (by rw [← same]; simp only [List.mem_append]; tauto)⟩
      have lengths : (line ++ (b :: bs ++ rest)).length = line.length + (bs.length + 1) + rest.length := by
        simp only [List.length_append, List.length_cons, Nat.add_assoc]
      have next : Along Singly ((b :: bs).getLast?.or (line.getLast?.or before)) rest := along.right.right
      have visible : Visible (singleBody indent false rest ++ '\'' :: tail) := by
        refine visible_singleBody next ?_ starts tail
        rw [List.getLast?_eq_some_getLast (List.cons_ne_nil b bs), Option.some_or]
        exact ends _ (List.getLast_mem _)
      rw [singleBody_next ends starts] at here ⊢
      simp only [List.append_assoc] at here
      have stop : EndsQuoted true
          (b :: bs ++ (spaces indent ++ (singleBody indent false rest ++ '\'' :: tail))) :=
        endsQuoted_of_gap _ (by rw [ends b List.mem_cons_self, Bool.or_true])
      have solid : line.getLast? = some ' ' →
          Visible (b :: bs ++ (spaces indent ++ (singleBody indent false rest ++ '\'' :: tail))) := by
        intro space
        have next := along.right
        rw [space, Option.some_or] at next
        exact absurd (ends b List.mem_cons_self) (by rw [next.1.ends rfl]; decide)
      obtain ⟨fuel', bound, read⟩ := quotedFrom_line inLine here stop solid aside
        (show line.length < fuel by omega) text
      have there := Place.rest_past here
      have after : ((p.past (line.flatMap (quoted true))).past (b :: bs ++ spaces indent)).rest =
          singleBody indent false rest ++ '\'' :: tail :=
        Place.rest_past (there.trans (List.append_assoc _ _ _).symm)
      have column : 0 < ((p.past (line.flatMap (quoted true))).past (b :: bs ++ spaces indent)).column := by
        rw [Place.past_append, Place.column_past_of_line _ not_isBreak_of_mem_spaces, length_spaces]
        omega
      rw [read, quotedOn_breaks counts there visible,
        ih rest.length (by omega) next (fun among ↦ feed (by simp [among])) after column
          (show rest.length < fuel' by omega) (text ++ line ++ b :: bs) rfl]
      simp only [← Place.past_append, List.append_assoc, List.cons_append]

/-- A scalar in single quotes is read up to its mark. -/
theorem quotedScalar_lines (along : Along Singly none cs) (feed : '\n' ∉ cs) (indented : 0 < indent)
    (here : p.rest = '\'' :: (singleBody indent false cs ++ '\'' :: tail)) (apart : tail.head? ≠ some '\'') :
    quotedScalar true p =
      some (String.ofList cs, p.past ('\'' :: (singleBody indent false cs ++ ['\'']))) := by
  have next : (p.past ['\'']).rest = singleBody indent false cs ++ '\'' :: tail := Place.rest_past here
  have aside : 0 < (p.past ['\'']).column := Nat.succ_pos _
  have enough : cs.length < p.rest.length + 1 := by
    have few := length_le_singleBody indent false cs
    rw [here, List.length_cons, List.length_append]
    omega
  have read := quotedFrom_lines along feed indented next apart aside enough []
  rw [← Place.past_append] at read
  rw [quotedScalar]
  exact congrArg _ read

end Lines

end Troupe.Yaml
