import Troupe.Proofs.Yaml.Style

/-!
# Blocks are read as they were written

A block is read line by line: the empty lines before a line and its indentation (`blockBreaks`), and then the
line up to its end (`blockFrom`).  What follows a block stands further out than its lines, and there the
reading stops.  The line ends at the end of a block are told apart from those inside by what stands last
(`blockFrom_lines`), and the header says which of them count (`chompMark_eq`).
-/

namespace Troupe.Yaml

section Blocks

variable {p : Place} {cs tail : List Char} {indent n fuel : Nat}

/-! ## Empty lines -/

/-- The place after `n` spaces is where the reading of empty lines stops: what follows is a line at the
indentation, or it stands further out. -/
structure Indented (indent n : Nat) (tail : List Char) : Prop where
  /-- no more spaces count -/
  reach : min ((spaces n ++ tail).takeWhile (· == ' ')).length indent = n
  /-- the line is not empty, and starts with no tab -/
  text : ∀ c ∈ tail.head?, isBreak c = false ∧ c ≠ '\t'

theorem indented_line {c : Char} (rest : List Char) (inside : isBreak c = false) (tab : c ≠ '\t') :
    Indented indent indent (c :: rest) := by
  refine ⟨?_, ?_⟩
  · rw [List.takeWhile_append_of_pos fun d among ↦ by rw [mem_spaces among]; rfl, List.length_append,
      length_spaces]
    omega
  · rintro d ⟨⟩
    exact ⟨inside, tab⟩

theorem indented_end (outside : n < indent) (visible : Visible tail) : Indented indent n tail := by
  refine ⟨?_, ?_⟩
  · rw [takeWhile_spaces visible, length_spaces]
    omega
  · intro c head
    obtain ⟨word, inside⟩ := visible c head
    refine ⟨inside, ?_⟩
    rintro rfl
    cases word

/-- A line end that is written as it stands. -/
structure Ends (b : Char) : Prop where
  /-- it needs no escape -/
  printable : isPrintable b = true
  /-- it ends a line -/
  ends : isBreak b = true

theorem Ends.newline? {b : Char} (ends : Ends b) (here : p.rest = b :: tail) :
    p.newline? = some (b, p.past [b]) := by
  rw [Place.newline?_of_isBreak here ends.ends (ne_of_isPrintable ends.printable).2,
    shown_of_isPrintable ends.printable ends.ends]

/-- Empty lines are read up to one that is not empty. -/
theorem blockBreaks_known {bs : List Char} (ends : ∀ b ∈ bs, Ends b)
    (here : p.rest = bs ++ (spaces n ++ tail)) (start : p.column = 0) (indented : Indented indent n tail)
    (enough : bs.length < fuel) (least deepest : Nat) (breaks : List Char) :
    blockBreaks least fuel (some indent) deepest breaks p =
      some (breaks ++ bs, indent, p.past (bs ++ spaces n)) := by
  induction bs generalizing p fuel deepest breaks with
  | nil =>
    obtain ⟨fuel, rfl⟩ : ∃ more, fuel = more + 1 := ⟨fuel - 1, by omega⟩
    rw [List.nil_append] at here
    have there : p.advance n = p.past (spaces n) := (Place.past_spaces n here).symm
    have rest : (p.past (spaces n)).rest = tail := Place.rest_past here
    have text : (p.past (spaces n)).newline? = none :=
      Place.newline?_of_inside fun c head ↦ (indented.text c (rest ▸ head)).1
    have tab : (tail.head? == some '\t') = false := by
      cases tail with
      | nil => rfl
      | cons c tail => simpa using (indented.text c rfl).2
    rw [blockBreaks]
    simp only [here, start, Nat.sub_zero, indented.reach, there, rest, tab, text, Bool.and_false,
      Bool.false_eq_true, if_false, List.append_nil, List.nil_append, Option.getD_some]
  | cons b bs ih =>
    rw [List.length_cons] at enough
    obtain ⟨fuel, rfl⟩ : ∃ more, fuel = more + 1 := ⟨fuel - 1, by omega⟩
    have first := ends b List.mem_cons_self
    have blank := isBlank_of_isBreak first.ends
    have space : (b == ' ') = false := by
      rw [beq_eq_false_iff_ne]
      rintro rfl
      cases blank
    have tab : (some b == some '\t') = false := by
      rw [beq_eq_false_iff_ne]
      rintro ⟨⟩
      cases blank
    have next : (p.past [b]).rest = bs ++ (spaces n ++ tail) := Place.rest_past here
    have column : (p.past [b]).column = 0 := by rw [Place.past, first.ends]; rfl
    have more := ih (fun c among ↦ ends c (List.mem_cons_of_mem _ among)) next column
      (show bs.length < fuel by omega) (max deepest p.column) (breaks ++ [b])
    rw [← Place.past_append, List.append_assoc] at more
    rw [blockBreaks]
    simp only [here, List.cons_append, List.takeWhile_cons, space, Bool.false_eq_true, if_false,
      List.length_nil, Nat.zero_min, Place.advance_zero, List.head?_cons, tab, Bool.and_false,
      first.newline? here]
    exact more

/-- The first line shows the indentation. -/
theorem blockBreaks_shown {least : Nat} (here : p.rest = spaces n ++ tail) (start : p.column = 0)
    (visible : Visible tail) (above : least ≤ n) (fuel : Nat) :
    blockBreaks least (fuel + 1) none 0 [] p = some ([], n, p.past (spaces n)) := by
  have there : p.advance n = p.past (spaces n) := (Place.past_spaces n here).symm
  have rest : (p.past (spaces n)).rest = tail := Place.rest_past here
  have column : (p.past (spaces n)).column = n := by
    rw [Place.column_past_of_line _ not_isBreak_of_mem_spaces, start, length_spaces, Nat.zero_add]
  have text : (p.past (spaces n)).newline? = none := Place.newline?_of_visible (rest ▸ visible)
  have tab : (tail.head? == some '\t') = false := by
    rw [beq_eq_false_iff_ne]
    intro head
    exact absurd (visible '\t' head).1 (by decide)
  rw [blockBreaks]
  simp only [here, takeWhile_spaces visible, length_spaces, there, text, column, rest, tab, Bool.and_false,
    Bool.false_eq_true, if_false, Option.getD_none, Nat.zero_max, Nat.max_eq_left above]

/-! ## Lines -/

theorem literalBody_line {line : List Char} (inside : ∀ c ∈ line, isBreak c = false) (rest : List Char) :
    literalBody indent false (line ++ rest) = line ++ literalBody indent false rest := by
  induction line with
  | nil => rfl
  | cons c line ih =>
    have more := ih fun d among ↦ inside d (List.mem_cons_of_mem _ among)
    simp [literalBody, inside c List.mem_cons_self, more]

theorem literalBody_breaks {bs : List Char} (ends : ∀ b ∈ bs, isBreak b = true) (rest : List Char) :
    literalBody indent true (bs ++ rest) = bs ++ literalBody indent true rest := by
  induction bs with
  | nil => rfl
  | cons b bs ih =>
    have more := ih fun d among ↦ ends d (List.mem_cons_of_mem _ among)
    simp [literalBody, ends b List.mem_cons_self, more]

/-- The last line is ended also if the text does not end it. -/
theorem literalBody_last {line bs : List Char} (inside : ∀ c ∈ line, isBreak c = false)
    (ends : ∀ b ∈ bs, isBreak b = true) :
    literalBody indent false (line ++ bs) = line ++ bs.headD '\n' :: bs.tail := by
  rw [literalBody_line inside]
  cases bs with
  | nil => rfl
  | cons b bs =>
    have more : literalBody indent true (bs ++ []) = bs ++ literalBody indent true [] :=
      literalBody_breaks (fun c among ↦ ends c (List.mem_cons_of_mem b among)) []
    simp only [List.append_nil, literalBody] at more
    simp [literalBody, ends b List.mem_cons_self, more]

theorem literalBody_indented {c : Char} (inside : isBreak c = false) (rest : List Char) :
    literalBody indent true (c :: rest) = spaces indent ++ literalBody indent false (c :: rest) := by
  simp [literalBody, inside]

/-- A text of a block ends with a line and the line ends after it. -/
structure Closes (line bs : List Char) : Prop where
  /-- the line is not empty -/
  full : ∃ start c, line = start ++ [c] ∧ isBreak c = false
  /-- only line ends come after it -/
  ends : ∀ b ∈ bs, isBreak b = true

theorem Closes.append {line bs : List Char} (closes : Closes line bs) (before : List Char) :
    Closes (before ++ line) bs := by
  obtain ⟨start, c, rfl, inside⟩ := closes.full
  exact ⟨⟨before ++ start, c, (List.append_assoc _ _ _).symm, inside⟩, closes.ends⟩

/-- Behind the ends of a line the next one is indented. -/
theorem literalBody_next {line bs : List Char} {b c : Char} (inside : ∀ c ∈ line, isBreak c = false)
    (ends : ∀ c ∈ b :: bs, isBreak c = true) (other : isBreak c = false) (rest : List Char) :
    literalBody indent false (line ++ (b :: bs ++ c :: rest)) =
      line ++ (b :: bs ++ (spaces indent ++ literalBody indent false (c :: rest))) := by
  rw [literalBody_line inside, List.cons_append, literalBody, if_pos (ends b List.mem_cons_self),
    literalBody_breaks (fun c among ↦ ends c (List.mem_cons_of_mem b among)), literalBody_indented other,
    List.cons_append]

/-- A line is read up to its end, with the empty lines after it. -/
theorem blockFrom_line {line bs : List Char} {b : Char} (full : line ≠ [])
    (inside : ∀ c ∈ line, isBreak c = false) (ends : ∀ c ∈ b :: bs, Ends c)
    (here : p.rest = line ++ (b :: bs ++ (spaces n ++ tail))) (column : p.column = indent)
    (indented : Indented indent n tail) (fuel : Nat) (text lineEnd breaks : List Char)
    (blankBefore : Bool) :
    ∃ blank, blockFrom false indent (fuel + 1) text lineEnd blankBefore breaks p =
      blockFrom false indent fuel (text ++ lineEnd ++ breaks ++ line) [b] blank bs
        (p.past (line ++ (b :: bs ++ spaces n))) := by
  have first := ends b List.mem_cons_self
  have others : ∀ c ∈ bs, Ends c := fun c among ↦ ends c (List.mem_cons_of_mem _ among)
  have taken : p.rest.takeWhile (!isBreak ·) = line := by
    rw [here]
    refine takeWhile_run (fun c among ↦ by simp [inside c among]) ?_
    rintro c ⟨⟩
    simp [first.ends]
  have there : (p.past line).rest = b :: (bs ++ (spaces n ++ tail)) := Place.rest_past here
  have next : ((p.past line).past [b]).rest = bs ++ (spaces n ++ tail) := Place.rest_past there
  have start : ((p.past line).past [b]).column = 0 := by rw [Place.past, first.ends]; rfl
  have nonempty : p.rest.isEmpty = false := by
    rw [here]
    cases line with
    | nil => exact absurd rfl full
    | cons c line => rfl
  refine ⟨p.rest.head?.any isBlank, ?_⟩
  have moved : p.advance line.length = p.past line := (Place.past_of_line here inside).symm
  rw [blockFrom, taken, nonempty, column]
  simp only [bne_self_eq_false, Bool.or_false, Bool.false_eq_true, if_false, Bool.false_and, moved,
    first.newline? there]
  rw [blockBreaks_known others next start indented]
  · simp only [List.nil_append, ← Place.past_append, List.append_assoc, List.cons_append]
  · rw [next, List.length_append]
    omega

/-- What stands in another column is not in the block. -/
theorem blockFrom_outside (outside : p.column ≠ indent) (fuel : Nat) (text lineEnd breaks : List Char)
    (blankBefore : Bool) :
    blockFrom false indent fuel text lineEnd blankBefore breaks p = some (text, lineEnd, breaks, p) := by
  cases fuel with
  | zero => rfl
  | succ fuel => simp [blockFrom, outside]

/-- The last line is read, with the line ends after it. -/
theorem blockFrom_last {line bs : List Char} (full : line ≠ []) (inside : ∀ c ∈ line, isBreak c = false)
    (ends : ∀ b ∈ bs, Ends b) (here : p.rest = literalBody indent false (line ++ bs) ++ (spaces n ++ tail))
    (column : p.column = indent) (outside : n < indent) (visible : Visible tail) (fuel : Nat)
    (text lineEnd breaks : List Char) (blankBefore : Bool) :
    blockFrom false indent (fuel + 1) text lineEnd blankBefore breaks p =
      some (text ++ lineEnd ++ breaks ++ line, [bs.headD '\n'], bs.tail,
        p.past (literalBody indent false (line ++ bs) ++ spaces n)) := by
  have all : ∀ c ∈ bs.headD '\n' :: bs.tail, Ends c := by
    cases bs with
    | nil => simpa using ⟨rfl, rfl⟩
    | cons b bs => exact ends
  rw [literalBody_last inside fun b among ↦ (ends b among).ends, List.append_assoc line] at here ⊢
  obtain ⟨blank, read⟩ := blockFrom_line full inside all here column (indented_end outside visible) fuel
    text lineEnd breaks blankBefore
  have last : (p.past (line ++ (bs.headD '\n' :: bs.tail ++ spaces n))).column = n := by
    rw [Place.past_append]
    exact Place.column_past_indented _ (fun c among ↦ (all c among).ends) (.inr (List.cons_ne_nil _ _)) n
  rw [read, blockFrom_outside (by omega)]

/-- Lines are read one after the other. -/
theorem blockFrom_lines (printable : ∀ c ∈ cs, isPrintable c = true) (starts : ∃ c ∈ cs.head?, isBreak c = false)
    (here : p.rest = literalBody indent false cs ++ (spaces n ++ tail)) (column : p.column = indent)
    (outside : n < indent) (visible : Visible tail) (enough : cs.length ≤ fuel)
    (text lineEnd breaks : List Char) (blankBefore : Bool) :
    ∃ front bs, cs = front ++ bs ∧ Closes front bs ∧
      blockFrom false indent fuel text lineEnd blankBefore breaks p =
        some (text ++ lineEnd ++ breaks ++ front, [bs.headD '\n'], bs.tail,
          p.past (literalBody indent false cs ++ spaces n)) := by
  induction size : cs.length using Nat.strongRecOn generalizing cs p fuel text lineEnd breaks blankBefore with
  | ind m ih =>
    obtain ⟨line, rest, rfl, inside, stops⟩ := exists_run (!isBreak ·) cs
    obtain ⟨bs, rest, rfl, ends, next⟩ := exists_run isBreak rest
    replace inside : ∀ c ∈ line, isBreak c = false := fun c among ↦ by simpa using inside c among
    have full : line ≠ [] := by
      rintro rfl
      obtain ⟨c, head, other⟩ := starts
      have last := stops c head
      simp [other] at last
    have positive := List.length_pos_iff.mpr full
    have lengths : (line ++ (bs ++ rest)).length = line.length + bs.length + rest.length := by
      simp only [List.length_append, Nat.add_assoc]
    have all : ∀ c ∈ bs, Ends c := fun c among ↦
      ⟨printable c (List.mem_append_right _ (List.mem_append_left _ among)), ends c among⟩
    obtain ⟨fuel, rfl⟩ : ∃ more, fuel = more + 1 := ⟨fuel - 1, by omega⟩
    cases rest with
    | nil =>
      rw [List.append_nil] at here ⊢
      refine ⟨line, bs, rfl, ⟨⟨_, _, (List.dropLast_concat_getLast full).symm, ?_⟩, ends⟩,
        blockFrom_last full inside all here column outside visible fuel text lineEnd breaks blankBefore⟩
      exact inside _ (List.getLast_mem full)
    | cons c rest =>
      have other : isBreak c = false := next c rfl
      obtain ⟨b, bs, rfl⟩ : ∃ b more, bs = b :: more := by
        refine List.exists_cons_of_ne_nil ?_
        rintro rfl
        have last := stops c rfl
        simp [other] at last
      have tab : c ≠ '\t' := (ne_of_isPrintable (printable c (by simp))).1
      have first : literalBody indent false (c :: rest) = c :: literalBody indent false rest := by
        simp [literalBody, other]
      rw [literalBody_next inside ends other] at here ⊢
      simp only [List.append_assoc] at here
      obtain ⟨blank, read⟩ := blockFrom_line full inside all here column (first ▸ indented_line _ other tab) fuel
        text lineEnd breaks blankBefore
      have after : (p.past (line ++ (b :: bs ++ spaces indent))).rest =
          literalBody indent false (c :: rest) ++ (spaces n ++ tail) :=
        Place.rest_past (by rw [here]; simp only [List.append_assoc])
      have column : (p.past (line ++ (b :: bs ++ spaces indent))).column = indent := by
        rw [Place.past_append]
        exact Place.column_past_indented _ ends (.inr (List.cons_ne_nil _ _)) indent
      rw [List.length_cons] at lengths
      obtain ⟨front, later, split, closes, more⟩ := ih (c :: rest).length (by omega)
        (fun d among ↦ printable d (by simp only [List.mem_append]; tauto)) ⟨c, rfl, other⟩ after column
        (show (c :: rest).length ≤ fuel by omega) (text ++ lineEnd ++ breaks ++ line) [b] bs blank rfl
      refine ⟨line ++ (b :: bs ++ front), later, ?_, ?_, ?_⟩
      · rw [split]
        simp only [List.append_assoc]
      · exact (closes.append (b :: bs)).append line
      · rw [read, more, ← Place.past_append]
        simp only [List.append_assoc, List.nil_append, List.cons_append]

theorem length_le_literalBody (indent : Nat) (atStart : Bool) (cs : List Char) :
    cs.length ≤ (literalBody indent atStart cs).length := by
  induction cs generalizing atStart with
  | nil => exact Nat.zero_le _
  | cons c cs ih =>
    rw [literalBody]
    split
    · simpa using ih true
    · have more := ih false
      simp only [List.length_append, List.length_cons]
      omega

end Blocks

/-! ## Headers -/

/-- The sign of which line ends count. -/
def Chomp.sign : Chomp → List Char
  | .strip => ['-']
  | .clip => []
  | .keep => ['+']

theorem Chomp.sign_injective {c d : Chomp} (same : c.sign = d.sign) : c = d := by
  cases c <;> cases d <;> first | rfl | cases same

/-- Which line ends count, if so many end a text. -/
def Chomp.ofCount : Nat → Chomp
  | 0 => .strip
  | 1 => .clip
  | _ => .keep

/-- Just the line ends of the text count. -/
theorem kept_ofCount (bs : List Char) :
    (if Chomp.ofCount bs.length = .strip then [] else [bs.headD '\n']) ++
      (if Chomp.ofCount bs.length = .keep then bs.tail else []) = bs := by
  match bs with
  | [] => rfl
  | [b] => rfl
  | b :: c :: rest => rfl

theorem chompMark_eq {line bs : List Char} (closes : Closes line bs) :
    chompMark (line ++ bs) = (Chomp.ofCount bs.length).sign := by
  obtain ⟨start, c, rfl, inside⟩ := closes.full
  have ends : ∀ b ∈ bs.reverse, isBreak b = true := fun b among ↦ closes.ends b (List.mem_reverse.mp among)
  have shape : (start ++ [c] ++ bs).reverse = bs.reverse ++ c :: start.reverse := by simp
  rw [chompMark, shape, ← List.length_reverse]
  match behind : bs.reverse with
  | [] => cases start.reverse <;> simp [inside, Chomp.ofCount, Chomp.sign]
  | [b] => simp [ends b (by simp [behind]), inside, Chomp.ofCount, Chomp.sign]
  | b :: b' :: rest =>
    simp [ends b (by simp [behind]), ends b' (by simp [behind]), Chomp.ofCount, Chomp.sign]

/-- Line ends alone all count. -/
theorem chompMark_breaks {bs : List Char} (ends : ∀ b ∈ bs, isBreak b = true) (some : bs ≠ []) :
    chompMark bs = Chomp.keep.sign := by
  have ends : ∀ b ∈ bs.reverse, isBreak b = true := fun b among ↦ ends b (List.mem_reverse.mp among)
  rw [chompMark]
  match behind : bs.reverse with
  | [] => exact absurd (List.reverse_eq_nil_iff.mp behind) some
  | [b] => simp [ends b (by simp [behind]), Chomp.sign]
  | b :: b' :: rest => simp [ends b (by simp [behind]), ends b' (by simp [behind]), Chomp.sign]

/-- The sign of the indentation. -/
def hintSign (stated : Bool) : List Char := if stated then ['2'] else []

/-- The signs of a header are read. -/
theorem headerSigns?_signs (stated : Bool) (chomp : Chomp) (tail : List Char) :
    headerSigns? (hintSign stated ++ chomp.sign ++ '\n' :: tail) =
      some (chomp, if stated then some 2 else none, (hintSign stated ++ chomp.sign).length) := by
  cases stated <;> cases chomp <;> cases tail <;> rfl

/-! ## Blocks -/

section Scalars

variable {p : Place} {parent : Int} {outer n : Nat} {cs tail : List Char}

/-- Reads what comes after the header of a block. -/
def blockBody (parent : Int) (chomp : Chomp) (stated : Option Nat) (p : Place) : Option (String × Place) :=
  (blockBreaks (max 1 (parent + 1).toNat) (p.rest.length + 1) (stated.map fun n ↦ (max parent 0).toNat + n)
    0 [] p).bind fun (breaks, indent, p) ↦
      (blockFrom false indent (p.rest.length + 1) [] [] false breaks p).bind fun (text, lineEnd, later, p) ↦
        some (String.ofList (text ++ (if chomp = .strip then [] else lineEnd)
          ++ (if chomp = .keep then later else [])), p)

/-- The header of a block is read. -/
theorem blockScalar_header {stated : Bool} {chomp : Chomp}
    (here : p.rest = '|' :: (hintSign stated ++ chomp.sign) ++ '\n' :: tail) :
    blockScalar false parent p = blockBody parent chomp (if stated then some 2 else none)
      (p.past ('|' :: (hintSign stated ++ chomp.sign) ++ ['\n'])) := by
  have inside : ∀ c ∈ '|' :: (hintSign stated ++ chomp.sign), isBreak c = false := by
    cases stated <;> cases chomp <;> exact not_isBreak_of_all rfl
  have passed : p.advance ((hintSign stated ++ chomp.sign).length + 1) =
      p.past ('|' :: (hintSign stated ++ chomp.sign)) := (Place.past_of_line here inside).symm
  have there : (p.past ('|' :: (hintSign stated ++ chomp.sign))).rest = '\n' :: tail := Place.rest_past here
  have signs := headerSigns?_signs stated chomp tail
  have stays : (p.past ('|' :: (hintSign stated ++ chomp.sign))).skipWhile isBlank =
      p.past ('|' :: (hintSign stated ++ chomp.sign)) := by
    rw [Place.skipWhile, there]
    rfl
  have comment : ('\n' :: tail).head? ≠ some '#' := by simp
  rw [blockScalar, here, List.cons_append, List.drop_one, List.tail_cons, signs]
  simp only [Option.bind_eq_bind, Option.bind_some, passed, stays, there, if_neg comment]
  rw [Place.newline?_of_isBreak there rfl (by decide), Place.past_append]
  rfl

/-- A header has a sign of the indentation where the first line does not show it, and a sign of the line
ends that count. -/
theorem exists_blockHeader (cs : List Char) : ∃ (stated : Bool) (chomp : Chomp),
    blockHeader cs = '|' :: (hintSign stated ++ chomp.sign) ∧ chompMark cs = chomp.sign ∧
      (stated = false → ∀ c ∈ cs.head?, c ≠ ' ' ∧ isBreak c = false) := by
  obtain ⟨chomp, sign⟩ : ∃ chomp : Chomp, chompMark cs = chomp.sign := by
    rw [chompMark]
    split
    · exact ⟨.strip, rfl⟩
    · split
      · exact ⟨.keep, rfl⟩
      · exact ⟨.strip, rfl⟩
    · split
      · split
        · exact ⟨.keep, rfl⟩
        · exact ⟨.clip, rfl⟩
      · exact ⟨.strip, rfl⟩
  cases cs with
  | nil => exact ⟨false, chomp, by rw [← sign]; rfl, sign, by rintro - c ⟨⟩⟩
  | cons c cs =>
    by_cases hidden : c = ' ' ∨ isBreak c = true
    · refine ⟨true, chomp, ?_, sign, by rintro ⟨⟩⟩
      simp only [blockHeader, if_pos hidden, ← sign]
      rfl
    · refine ⟨false, chomp, ?_, sign, ?_⟩
      · simp only [blockHeader, if_neg hidden, ← sign]
        rfl
      · rintro - d ⟨⟩
        simpa using hidden

/-- The indentation of a block is found, stated or not. -/
theorem blockBreaks_first {stated : Bool} {bs rest : List Char} {c : Char} (all : ∀ b ∈ bs, Ends b)
    (printable : isPrintable c = true) (inside : isBreak c = false)
    (here : p.rest = bs ++ (spaces outer ++ c :: rest)) (start : p.column = 0)
    (deep : outer = (max parent 0).toNat + 2) (shows : stated = false → bs = [] ∧ c ≠ ' ') :
    blockBreaks (max 1 (parent + 1).toNat) (p.rest.length + 1)
      ((if stated then some 2 else none).map fun n ↦ (max parent 0).toNat + n) 0 [] p =
        some (bs, outer, p.past (bs ++ spaces outer)) := by
  cases stated with
  | true =>
    have indented : Indented outer outer (c :: rest) := indented_line rest inside (ne_of_isPrintable printable).1
    have enough : bs.length < p.rest.length + 1 := by
      rw [here, List.length_append]
      omega
    rw [if_pos rfl, Option.map_some, ← deep, blockBreaks_known all here start indented enough]
    rfl
  | false =>
    obtain ⟨rfl, shown⟩ := shows rfl
    have visible : Visible (c :: rest) := visible_cons rest (isBlank_eq_false printable shown) inside
    exact blockBreaks_shown here start visible (by omega) p.rest.length

/-- The lines of a block are read, behind the empty lines before them. -/
theorem blockBody_lines {chomp : Chomp} {stated : Option Nat} {bs : List Char} {c : Char} {rest : List Char}
    (printable : ∀ d ∈ c :: rest, isPrintable d = true) (inside : isBreak c = false)
    (before : blockBreaks (max 1 (parent + 1).toNat) (p.rest.length + 1)
      (stated.map fun n ↦ (max parent 0).toNat + n) 0 [] p = some (bs, outer, p.past (bs ++ spaces outer)))
    (here : p.rest = bs ++ (spaces outer ++ (literalBody outer false (c :: rest) ++ (spaces n ++ tail))))
    (column : (p.past (bs ++ spaces outer)).column = outer) (outside : n < outer) (visible : Visible tail)
    (sign : chompMark (bs ++ c :: rest) = chomp.sign) :
    blockBody parent chomp stated p = some (String.ofList (bs ++ c :: rest),
      p.past (bs ++ (spaces outer ++ (literalBody outer false (c :: rest) ++ spaces n)))) := by
  have there : (p.past (bs ++ spaces outer)).rest =
      literalBody outer false (c :: rest) ++ (spaces n ++ tail) :=
    Place.rest_past (here.trans (List.append_assoc _ _ _).symm)
  have enough : (c :: rest).length ≤ (p.past (bs ++ spaces outer)).rest.length + 1 := by
    have few := length_le_literalBody outer false (c :: rest)
    rw [there, List.length_append]
    omega
  obtain ⟨front, later, split, closes, read⟩ := blockFrom_lines printable ⟨c, rfl, inside⟩ there column outside
    visible enough [] [] bs false
  have whole : Closes (bs ++ front) later := closes.append bs
  obtain rfl : chomp = Chomp.ofCount later.length := by
    refine Chomp.sign_injective ?_
    rw [← sign, split, ← List.append_assoc, chompMark_eq whole]
  have text : bs ++ c :: rest = bs ++ front ++
      (if Chomp.ofCount later.length = .strip then [] else [later.headD '\n']) ++
      (if Chomp.ofCount later.length = .keep then later.tail else []) := by
    rw [split, List.append_assoc (bs ++ front), kept_ofCount, List.append_assoc]
  rw [← Place.past_append, List.append_assoc bs] at read
  rw [blockBody, before, Option.bind_some, text]
  dsimp only
  rw [read]
  rfl

/-- Line ends alone are read. -/
theorem blockBody_breaks {bs : List Char} (ends : ∀ b ∈ bs, Ends b) (here : p.rest = bs ++ (spaces n ++ tail))
    (start : p.column = 0) (deep : outer = (max parent 0).toNat + 2) (outside : n < outer)
    (visible : Visible tail) :
    blockBody parent .keep (.some 2) p = .some (String.ofList bs, p.past (bs ++ spaces n)) := by
  have enough : bs.length < p.rest.length + 1 := by
    rw [here, List.length_append]
    omega
  have column : (p.past (bs ++ spaces n)).column ≠ outer := by
    rw [Place.column_past_indented p (fun b among ↦ (ends b among).ends) (.inl start)]
    omega
  rw [blockBody, Option.map_some, ← deep,
    blockBreaks_known ends here start (indented_end outside visible) enough, Option.bind_some]
  dsimp only
  rw [blockFrom_outside column]
  rfl

/-- A block is read with the line ends at its end. -/
theorem blockScalar_literal (printable : ∀ c ∈ cs, isPrintable c = true) (some : cs ≠ [])
    (here : p.rest = blockHeader cs ++ '\n' :: (literalBody outer true cs ++ (spaces n ++ tail)))
    (deep : outer = (max parent 0).toNat + 2) (outside : n < outer) (visible : Visible tail) :
    blockScalar false parent p = .some (String.ofList cs,
      p.past (blockHeader cs ++ '\n' :: (literalBody outer true cs ++ spaces n))) := by
  obtain ⟨stated, chomp, header, sign, shows⟩ := exists_blockHeader cs
  obtain ⟨bs, rest, rfl, ends, starts⟩ := exists_run isBreak cs
  have all : ∀ b ∈ bs, Ends b := fun b among ↦ ⟨printable b (List.mem_append_left _ among), ends b among⟩
  have hidden (shown : stated = false) : bs = [] := by
    cases bs with
    | nil => rfl
    | cons b bs =>
      have inside := (shows shown b rfl).2
      rw [ends b List.mem_cons_self] at inside
      cases inside
  rw [header] at here ⊢
  rw [blockScalar_header here]
  generalize signs : '|' :: (hintSign stated ++ chomp.sign) = head at here ⊢
  have there : (p.past (head ++ ['\n'])).rest = literalBody outer true (bs ++ rest) ++ (spaces n ++ tail) :=
    Place.rest_past (by rw [here]; simp)
  have start : (p.past (head ++ ['\n'])).column = 0 := by
    rw [Place.past_append]
    rfl
  have past (ds : List Char) : p.past (head ++ '\n' :: ds) = (p.past (head ++ ['\n'])).past ds := by
    rw [← Place.past_append, List.append_assoc]
    rfl
  rw [literalBody_breaks ends] at there ⊢
  rw [past (bs ++ literalBody outer true rest ++ spaces n)]
  generalize p.past (head ++ ['\n']) = q at there start ⊢
  cases rest with
  | nil =>
    rw [literalBody, if_pos rfl, List.append_nil] at there ⊢
    rw [List.append_nil] at sign some
    have stated : stated = true := by
      by_contra shown
      exact some (hidden (by simpa using shown))
    obtain rfl : chomp = .keep := Chomp.sign_injective (sign.symm.trans (chompMark_breaks ends some))
    rw [if_pos stated, blockBody_breaks all there start deep outside visible]
  | cons c rest =>
    have inside := starts c rfl
    have printable : ∀ d ∈ c :: rest, isPrintable d = true := fun d among ↦
      printable d (List.mem_append_right _ among)
    have first : literalBody outer false (c :: rest) = c :: literalBody outer false rest := by
      simp [literalBody, inside]
    rw [literalBody_indented inside] at there ⊢
    simp only [List.append_assoc] at there ⊢
    rw [first] at there
    refine blockBody_lines printable inside ?_ (first ▸ there)
      (Place.column_past_indented q ends (.inl start) outer) outside visible sign
    refine blockBreaks_first all (printable c List.mem_cons_self) inside there start deep fun shown ↦ ?_
    obtain rfl := hidden shown
    exact ⟨rfl, (shows shown c rfl).1⟩

end Scalars

end Troupe.Yaml
