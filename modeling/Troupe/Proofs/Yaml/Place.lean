import Mathlib.Algebra.GroupWithZero.Nat
import Mathlib.Data.List.TakeDrop
import Troupe.Yaml.Lexeme
import Troupe.Yaml.Write

/-!
# Going on in a text

Who has read some characters goes on behind them (`Place.past`).  What is read is put together from parts, so
this is put together the same way.  Where the characters stand on one line, the place behind them is the one
that the readers come to (`past_of_line`), and where they hold line ends, the column counts from the last.
-/

namespace Troupe.Yaml

/-! ## Characters -/

theorem isBreak_space : isBreak ' ' = false := rfl

theorem isBreak_newline : isBreak '\n' = true := rfl

/-- Written text has no tabs and no carriage returns outside of escapes. -/
theorem ne_of_isPrintable {c : Char} (printable : isPrintable c = true) : c ≠ '\t' ∧ c ≠ '\r' := by
  constructor <;> rintro rfl <;> cases printable

theorem isBlank_eq_false {c : Char} (printable : isPrintable c = true) (visible : c ≠ ' ') :
    isBlank c = false := by
  simp [isBlank, visible, (ne_of_isPrintable printable).1]

theorem isBlank_of_isBreak {b : Char} (ends : isBreak b = true) : isBlank b = false := by
  simp only [isBreak, Bool.or_eq_true, beq_iff_eq] at ends
  rcases ends with (((rfl | rfl) | rfl) | rfl) | rfl <;> rfl

/-- The character that a line end counts as. -/
def shown (b : Char) : Char := if b = '\u2028' ∨ b = '\u2029' then b else '\n'

/-- Of the line ends that are printable, one is a line feed and the others count as themselves. -/
theorem shown_of_isPrintable {b : Char} (printable : isPrintable b = true) (ends : isBreak b = true) :
    shown b = b := by
  simp only [isBreak, Bool.or_eq_true, beq_iff_eq] at ends
  rcases ends with (((rfl | rfl) | rfl) | rfl) | rfl
  · rfl
  · cases printable
  · cases printable
  · rfl
  · rfl

/-- What follows is no blank and no line end. -/
def Visible (rest : List Char) : Prop := ∀ c ∈ rest.head?, isBlank c = false ∧ isBreak c = false

/-- The first character decides. -/
theorem visible_cons {c : Char} (rest : List Char) (word : isBlank c = false) (inside : isBreak c = false) :
    Visible (c :: rest) := by
  rintro d ⟨⟩
  exact ⟨word, inside⟩

theorem mem_spaces {c : Char} {n : Nat} (among : c ∈ spaces n) : c = ' ' := List.eq_of_mem_replicate among

theorem length_spaces (n : Nat) : (spaces n).length = n := List.length_replicate

theorem spaces_succ (n : Nat) : spaces (n + 1) = ' ' :: spaces n := rfl

/-- That no character ends a line is checked one by one. -/
theorem not_isBreak_of_all {cs : List Char} (line : cs.all (!isBreak ·) = true) :
    ∀ c ∈ cs, isBreak c = false := by
  simpa using line

theorem not_isBreak_of_mem_spaces {n : Nat} : ∀ c ∈ spaces n, isBreak c = false := by
  intro c among
  rw [mem_spaces among]
  rfl

/-- A run that a test accepts is taken up to the first character that it does not. -/
theorem takeWhile_run {test : Char → Bool} {run rest : List Char} (all : ∀ c ∈ run, test c = true)
    (stops : ∀ c ∈ rest.head?, test c = false) : (run ++ rest).takeWhile test = run := by
  rw [List.takeWhile_append_of_pos all]
  cases rest with
  | nil => exact List.append_nil run
  | cons c rest => rw [List.takeWhile_cons_of_neg (by simp [stops c rfl]), List.append_nil]

/-- Where something visible follows, the spaces are counted exactly. -/
theorem takeWhile_spaces {n : Nat} {rest : List Char} (visible : Visible rest) :
    (spaces n ++ rest).takeWhile (· == ' ') = spaces n := by
  refine takeWhile_run (fun c among ↦ by rw [mem_spaces among]; rfl) fun c head ↦ ?_
  by_contra space
  rw [Bool.not_eq_false, beq_iff_eq] at space
  exact absurd (visible c head).1 (by rw [space]; decide)

namespace Place

/-! ## Behind some characters -/

/-- The place behind characters that stand here. -/
def past (p : Place) : List Char → Place
  | [] => p
  | c :: cs =>
    (if isBreak c then ⟨p.rest.tail, p.index + c.utf8Size, p.line + 1, 0⟩ else p.advance 1).past cs

section Past

variable {p : Place} {cs tail : List Char}

theorem past_append (p : Place) (cs ds : List Char) : p.past (cs ++ ds) = (p.past cs).past ds := by
  induction cs generalizing p with
  | nil => rfl
  | cons c cs ih => exact ih _

theorem rest_past (here : p.rest = cs ++ tail) : (p.past cs).rest = tail := by
  induction cs generalizing p with
  | nil => exact here
  | cons c cs ih =>
    rw [past]
    apply ih
    split
    · rw [here]
      rfl
    · rw [advance, here]
      rfl

theorem advance_zero (p : Place) : p.advance 0 = p := rfl

theorem advance_advance (p : Place) (m n : Nat) : (p.advance m).advance n = p.advance (m + n) := by
  simp only [advance, List.drop_drop, List.take_add, List.foldl_append, Nat.add_assoc]

theorem past_of_line (here : p.rest = cs ++ tail) (line : ∀ c ∈ cs, isBreak c = false) :
    p.past cs = p.advance cs.length := by
  induction cs generalizing p with
  | nil => rfl
  | cons c cs ih =>
    have first : isBreak c = false := line c List.mem_cons_self
    have next : (p.advance 1).rest = cs ++ tail := by
      rw [advance, here]
      rfl
    rw [past, first, if_neg (by decide), ih next fun d among ↦ line d (List.mem_cons_of_mem _ among),
      advance_advance, List.length_cons, Nat.add_comm]

theorem past_spaces (n : Nat) (here : p.rest = spaces n ++ tail) : p.past (spaces n) = p.advance n := by
  rw [past_of_line here not_isBreak_of_mem_spaces, length_spaces]

theorem column_past_of_line (p : Place) (line : ∀ c ∈ cs, isBreak c = false) :
    (p.past cs).column = p.column + cs.length := by
  induction cs generalizing p with
  | nil => rfl
  | cons c cs ih =>
    have first : isBreak c = false := line c List.mem_cons_self
    rw [past, first, if_neg (by decide), ih _ fun d among ↦ line d (List.mem_cons_of_mem _ among), advance,
      List.length_cons]
    dsimp only
    omega

/-- The column counts from the last line end. -/
theorem column_past_spaces (p : Place) (cs : List Char) {b : Char} (ends : isBreak b = true) (n : Nat) :
    (p.past (cs ++ b :: spaces n)).column = n := by
  rw [past_append, past, if_pos ends, column_past_of_line _ not_isBreak_of_mem_spaces, length_spaces,
    Nat.zero_add]

/-- At the start of a line, or behind line ends, the column counts the spaces. -/
theorem column_past_indented (p : Place) {bs : List Char} (ends : ∀ b ∈ bs, isBreak b = true)
    (fresh : p.column = 0 ∨ bs ≠ []) (n : Nat) : (p.past (bs ++ spaces n)).column = n := by
  have start : (p.past bs).column = 0 := by
    rcases List.eq_nil_or_concat bs with rfl | ⟨front, last, rfl⟩
    · exact fresh.resolve_right fun some ↦ some rfl
    · rw [List.concat_eq_append, past_append, past, if_pos (ends last (by simp))]
      rfl
  rw [past_append, column_past_of_line _ not_isBreak_of_mem_spaces, start, length_spaces, Nat.zero_add]

theorem line_le_past (p : Place) (cs : List Char) : p.line ≤ (p.past cs).line := by
  induction cs generalizing p with
  | nil => exact Nat.le_refl _
  | cons c cs ih =>
    rw [past]
    refine Nat.le_trans ?_ (ih _)
    split
    · exact Nat.le_succ _
    · exact Nat.le_refl _

theorem line_past_of_line (p : Place) (line : ∀ c ∈ cs, isBreak c = false) :
    (p.past cs).line = p.line := by
  induction cs generalizing p with
  | nil => rfl
  | cons c cs ih =>
    have first : isBreak c = false := line c List.mem_cons_self
    rw [past, first, if_neg (by decide), ih _ fun d among ↦ line d (List.mem_cons_of_mem _ among)]
    rfl

/-- Behind a line end is a later line. -/
theorem line_lt_past (p : Place) (cs ds : List Char) {b : Char} (ends : isBreak b = true) :
    p.line < (p.past (cs ++ b :: ds)).line := by
  rw [past_append, past, if_pos ends]
  refine Nat.lt_of_lt_of_le (Nat.lt_succ_of_le (line_le_past p cs)) ?_
  exact line_le_past ⟨_, _, (p.past cs).line + 1, _⟩ ds

/-- The number of bytes before grows by those of the characters. -/
theorem index_past (p : Place) (here : p.rest = cs ++ tail) :
    (p.past cs).index = p.index + (cs.map Char.utf8Size).sum := by
  induction cs generalizing p with
  | nil => rfl
  | cons c cs ih =>
    rw [past, List.map_cons, List.sum_cons]
    split
    · rw [ih _ (by rw [here]; rfl), Nat.add_assoc]
    · have next : (p.advance 1).rest = cs ++ tail := by
        rw [advance, here]
        rfl
      have index : (p.advance 1).index = p.index + c.utf8Size := by
        rw [advance, here]
        rfl
      rw [ih _ next, index, Nat.add_assoc]

/-! ## Line ends -/

theorem newline?_of_isBreak {b : Char} {rest : List Char} (here : p.rest = b :: rest)
    (ends : isBreak b = true) (other : b ≠ '\r') : p.newline? = some (shown b, p.past [b]) := by
  rw [newline?, here]
  split
  · next same => exact absurd (List.cons.inj same).1 other
  · next same =>
    obtain ⟨rfl, rfl⟩ := List.cons.inj same
    rw [if_pos ends, past, if_pos ends, here]
    rfl
  · next same => cases same

theorem newline?_of_inside (inside : ∀ c ∈ p.rest.head?, isBreak c = false) : p.newline? = none := by
  rw [newline?]
  split
  · next same => exact absurd (inside '\r' (by rw [same]; rfl)) (by decide)
  · next c rest _ same =>
    rw [inside c (by rw [same]; rfl)]
    rfl
  · rfl

theorem newline?_of_visible (visible : Visible p.rest) : p.newline? = none :=
  newline?_of_inside fun c head ↦ (visible c head).2

end Past

end Place

/-! ## Gaps -/

section Gaps

variable {p : Place} {tail : List Char} {margin : Int} {fuel : Nat}

/-- A gap that some spaces are added to: they count between two words of a line, and not before the first. -/
def Gap.spaced (n : Nat) : Gap → Gap
  | .blanks cs => .blanks (cs ++ spaces n)
  | .breaks first later => .breaks first later

theorem Gap.spaced_zero (g : Gap) : g.spaced 0 = g := by
  cases g with
  | blanks cs => exact congrArg Gap.blanks (List.append_nil cs)
  | breaks first later => rfl

/-- A gap ends where something visible stands. -/
theorem gap_of_visible (visible : Visible p.rest) (fuel : Nat) (g : Gap) : gap fuel margin g p = some (g, p) := by
  cases fuel with
  | zero => rfl
  | succ fuel =>
    rw [gap, Place.newline?_of_visible visible]
    split
    · rfl
    · next c rest first =>
      rw [(visible c (by rw [first]; rfl)).1]
      rfl

/-- Spaces are passed over. -/
theorem gap_spaces {n : Nat} (here : p.rest = spaces n ++ tail) (visible : Visible tail) (enough : n ≤ fuel)
    (g : Gap) : gap fuel margin g p = some (g.spaced n, p.past (spaces n)) := by
  induction n generalizing p fuel g with
  | zero =>
    have here : p.rest = tail := here
    rw [gap_of_visible (here ▸ visible), g.spaced_zero]
    rfl
  | succ n ih =>
    obtain ⟨fuel, rfl⟩ : ∃ more, fuel = more + 1 := ⟨fuel - 1, by omega⟩
    have next : (p.advance 1).rest = spaces n ++ tail := by
      rw [Place.advance, here]
      rfl
    have more (g : Gap) := ih next (show n ≤ fuel by omega) g
    rw [gap, here]
    cases g with
    | blanks before =>
      rw [Gap.spaced, spaces_succ, List.append_cons]
      exact more (.blanks (before ++ [' ']))
    | breaks first later => exact more (.breaks first later)

/-- Line ends after another one all count. -/
theorem gap_breaks {bs : List Char} {n : Nat} (ends : ∀ b ∈ bs, isBreak b = true ∧ b ≠ '\r')
    (here : p.rest = bs ++ (spaces n ++ tail)) (visible : Visible tail) (enough : bs.length + n ≤ fuel)
    (first : Option Char) (later : List Char) :
    gap fuel margin (.breaks first later) p =
      some (.breaks first (later ++ bs.map shown), p.past (bs ++ spaces n)) := by
  induction bs generalizing p fuel later with
  | nil =>
    rw [gap_spaces here visible (by rw [List.length_nil] at enough; omega), List.map_nil, List.append_nil,
      List.nil_append]
    rfl
  | cons b bs ih =>
    rw [List.length_cons] at enough
    obtain ⟨fuel, rfl⟩ : ∃ more, fuel = more + 1 := ⟨fuel - 1, by omega⟩
    obtain ⟨ends₁, other⟩ := ends b List.mem_cons_self
    have word := isBlank_of_isBreak ends₁
    have there : (p.past [b]).rest = bs ++ (spaces n ++ tail) := Place.rest_past here
    have more := ih (fun c among ↦ ends c (List.mem_cons_of_mem _ among)) there
      (show bs.length + n ≤ fuel by omega) (later ++ [shown b])
    rw [← Place.past_append, List.append_assoc] at more
    rw [gap, Place.newline?_of_isBreak here ends₁ other, here]
    simp only [List.cons_append, word, Bool.false_eq_true, if_false]
    exact more

end Gaps

end Troupe.Yaml
