import Troupe.Proofs.Yaml.Style

/-!
# Plain scalars are read as they were written

A text that is written as it stands is words with spaces between them.  Its reader takes word after word up
to a colon, or up to a line that stands too far out to go on with it.
-/

namespace Troupe.Yaml

theorem endsWord_append {cs : List Char} (some : cs ≠ []) (tail : List Char) :
    endsWord (cs ++ tail) = endsWord cs := by
  cases cs with
  | nil => exact absurd rfl some
  | cons c cs => rfl

/-- A colon in a text that is written as it stands does not end a key. -/
theorem Plainly.colon {before : Option Char} {c : Char} {rest : List Char} (h : Plainly before c rest) :
    (c == ':' && endsWord rest) = false := by
  cases before with
  | none =>
    have first := (h.first rfl).2
    simp only [Features.isIndicatorFirst, Bool.or_eq_false_iff, Bool.and_eq_false_imp] at first
    cases colon : c == ':' with
    | false => rfl
    | true => exact first.2 (by simp [colon])
  | some b =>
    have later := h.later b rfl
    rw [Features.isIndicatorLater, Bool.or_eq_false_iff] at later
    exact later.1

section Words

variable {before : Option Char} {cs tail : List Char} {p : Place} {margin : Int}

/-- A word goes up to the next space. -/
theorem plainWord_append {word rest : List Char} (along : Along Plainly before (word ++ rest))
    (solid : ∀ c ∈ word, c ≠ ' ') (stops : ∀ c ∈ rest.head?, c = ' ')
    (ends : plainWord false tail = some ([], tail)) :
    plainWord false (word ++ (rest ++ tail)) = some (word, rest ++ tail) := by
  induction word generalizing before with
  | nil =>
    cases rest with
    | nil => exact ends
    | cons c rest =>
      rw [stops c rfl]
      rfl
  | cons c word ih =>
    obtain ⟨here, along⟩ := along
    have space : c ≠ ' ' := solid c List.mem_cons_self
    have later := ih along fun d among ↦ solid d (List.mem_cons_of_mem _ among)
    have colon : (c == ':' && endsWord (word ++ (rest ++ tail))) = false := by
      by_cases last : word ++ rest = []
      · -- The text does not end with a colon.
        have apart : (c == ':') = false := by simpa [last, endsWord] using here.colon
        rw [apart, Bool.false_and]
      · rw [← List.append_assoc, endsWord_append last]
        exact here.colon
    simp [plainWord, isBlank_eq_false here.printable space, here.inside, colon, later]

/-- What is done behind a word. -/
def plainOn (margin : Int) (fuel : Nat) (text : List Char) (p : Place) :
    Option (List Char × Place × Bool) :=
  if p.rest.isEmpty || !endsWord p.rest then some (text, p, false)
  else (gap p.rest.length margin (.blanks []) p).bind fun (g, p) ↦
    if (p.column : Int) < margin then some (text, p, g.isBreaks) else plainFrom false margin fuel text g p

/-- A word is added to what was read. -/
theorem plainFrom_word {word rest : List Char} (here : p.rest = word ++ (rest ++ tail))
    (along : Along Plainly before (word ++ rest)) (some : word ≠ []) (solid : ∀ c ∈ word, c ≠ ' ')
    (stops : ∀ c ∈ rest.head?, c = ' ') (ends : plainWord false tail = .some ([], tail))
    (comment : ∀ c ∈ word.head?, c ≠ '#') (mark : p.atDocumentMark = false) (fuel : Nat)
    (text : List Char) (g : Gap) :
    plainFrom false margin (fuel + 1) text g p =
      plainOn margin fuel (text ++ g.fold ++ word) (p.past word) := by
  have read := plainWord_append along solid stops ends
  have inside : ∀ c ∈ word, isBreak c = false := by
    intro c among
    have all := along.forall_mem (P := fun c ↦ isBreak c = false) fun _ _ _ h ↦ h.inside
    exact all c (List.mem_append_left _ among)
  have start : (p.rest.head? == .some '#') = false := by
    cases word with
    | nil => exact absurd rfl some
    | cons c word => simpa [here] using comment c rfl
  rw [Place.past_of_line here inside, plainFrom, mark, start, here, read]
  simp [some, plainOn, Gap.isBreaks]

/-- After some spaces in a text comes a word. -/
theorem plainOn_spaces {n fuel : Nat} {c : Char} (here : p.rest = spaces (n + 1) ++ (c :: cs ++ tail))
    (printable : Plainly before c cs) (space : c ≠ ' ') (aside : margin ≤ p.column) (text : List Char) :
    plainOn margin fuel text p =
      plainFrom false margin fuel text (.blanks (spaces (n + 1))) (p.past (spaces (n + 1))) := by
  have visible : Visible (c :: cs ++ tail) :=
    visible_cons _ (isBlank_eq_false printable.printable space) printable.inside
  have enough : n + 1 ≤ p.rest.length := by
    rw [here, List.length_append, length_spaces]
    omega
  have further : ¬ ((p.past (spaces (n + 1))).column : Int) < margin := by
    rw [Place.column_past_of_line p not_isBreak_of_mem_spaces]
    omega
  have goes : (p.rest.isEmpty || !endsWord p.rest) = false := by
    rw [here]
    rfl
  rw [plainOn, goes, if_neg (by decide), gap_spaces here visible enough, Option.bind_some]
  dsimp only
  rw [if_neg further]
  rfl

/-- A text is one word, or a word, spaces, and what starts with another word. -/
theorem exists_word (along : Along Plainly before cs) (some : cs ≠ []) (first : ∀ c ∈ cs.head?, c ≠ ' ') :
    ∃ word, word ≠ [] ∧ (∀ c ∈ word, c ≠ ' ') ∧ (cs = word ∨ ∃ k c rest,
      cs = word ++ (spaces (k + 1) ++ c :: rest) ∧ c ≠ ' ' ∧ c ≠ '#' ∧
        Along Plainly (.some ' ') (c :: rest)) := by
  obtain ⟨word, n, rest, rfl, solid, starts, last⟩ := exists_word_spaces cs
  have lead : word ≠ [] := by
    rintro rfl
    cases n with
    | zero => exact some (by rw [last rfl]; rfl)
    | succ n => exact first ' ' rfl rfl
  refine ⟨word, lead, solid, ?_⟩
  cases n with
  | zero => exact .inl (by rw [last rfl]; simp [spaces])
  | succ k =>
    cases rest with
    | nil =>
      -- The text does not end with a space.
      have shape : spaces (k + 1) ++ [] = spaces k ++ [' '] := by
        rw [List.append_nil]
        exact List.replicate_succ'
      rw [shape, ← List.append_assoc] at along
      exact absurd rfl (along.right.1.ends rfl)
    | cons c rest =>
      rw [← List.append_assoc] at along
      have next := along.right
      rw [spaces, List.replicate_succ', ← List.append_assoc, List.getLast?_concat, Option.some_or] at next
      refine .inr ⟨k, c, rest, rfl, starts c rfl, ?_, next⟩
      rintro rfl
      exact absurd (next.1.later ' ' rfl) (by simp [Features.isIndicatorLater, isBlank])

theorem inside_of_plainly (along : Along Plainly before cs) : ∀ c ∈ cs, isBreak c = false :=
  along.forall_mem fun _ _ _ h ↦ h.inside

/-- A text is read word after word. -/
theorem plainFrom_words (here : p.rest = cs ++ tail) (along : Along Plainly before cs)
    (some : cs ≠ []) (first : ∀ c ∈ cs.head?, c ≠ ' ' ∧ c ≠ '#')
    (ends : plainWord false tail = .some ([], tail)) (mark : p.atDocumentMark = false)
    (aside : margin ≤ p.column + 1) {fuel : Nat} (enough : cs.length ≤ fuel) (text : List Char) (g : Gap) :
    ∃ fuel', plainFrom false margin fuel text g p =
      plainOn margin fuel' (text ++ g.fold ++ cs) (p.past cs) := by
  induction size : cs.length using Nat.strongRecOn generalizing before cs p fuel text g with
  | ind n ih =>
    obtain ⟨word, lead, solid, parts⟩ := exists_word along some fun c head ↦ (first c head).1
    have comment (rest : List Char) (all : cs = word ++ rest) : ∀ c ∈ word.head?, c ≠ '#' := by
      obtain ⟨c, word, rfl⟩ := List.exists_cons_of_ne_nil lead
      exact fun d head ↦ (first d (all ▸ head)).2
    have positive := List.length_pos_iff.mpr lead
    rcases parts with rfl | ⟨k, c, rest, rfl, space, hash, next⟩
    · obtain ⟨fuel, rfl⟩ : ∃ more, fuel = more + 1 := ⟨fuel - 1, by omega⟩
      have all := (List.append_nil cs).symm
      refine ⟨fuel, plainFrom_word here (all ▸ along) lead solid ?_ ends (comment [] all) mark
        fuel text g⟩
      rintro c ⟨⟩
    · have lengths : (word ++ (spaces (k + 1) ++ c :: rest)).length =
          word.length + (k + 1) + (c :: rest).length := by
        simp only [List.length_append, length_spaces, Nat.add_assoc]
      obtain ⟨fuel, rfl⟩ : ∃ more, fuel = more + 1 := ⟨fuel - 1, by omega⟩
      rw [List.append_assoc] at here
      have there : (p.past word).rest = spaces (k + 1) ++ (c :: rest ++ tail) := by
        rw [Place.rest_past here, List.append_assoc]
      have inside : ∀ d ∈ word, isBreak d = false := fun d among ↦
        inside_of_plainly along d (List.mem_append_left _ among)
      have column := Place.column_past_of_line p inside
      have further := Place.column_past_of_line (p.past word) (not_isBreak_of_mem_spaces (n := k + 1))
      rw [length_spaces] at further
      have unmarked : ((p.past word).past (spaces (k + 1))).atDocumentMark = false := by
        simp [Place.atDocumentMark, further]
      obtain ⟨fuel', read⟩ := ih (c :: rest).length (by omega) (Place.rest_past there) next
        (List.cons_ne_nil c rest) (by rintro d ⟨⟩; exact ⟨space, hash⟩) unmarked (by omega)
        (show (c :: rest).length ≤ fuel by omega) (text ++ g.fold ++ word) (.blanks (spaces (k + 1))) rfl
      refine ⟨fuel', ?_⟩
      rw [plainFrom_word here along lead solid (by rintro d ⟨⟩; rfl) ends (comment _ rfl) mark,
        plainOn_spaces there next.1 space (by omega), read, Gap.fold, Place.past_append,
        Place.past_append]
      simp only [List.append_assoc]

/-! ## Plain scalars -/

/-- A text that is written as it stands starts with no space and no comment. -/
theorem first_of_plainly (along : Along Plainly none cs) : ∀ c ∈ cs.head?, c ≠ ' ' ∧ c ≠ '#' := by
  cases cs with
  | nil => rintro c ⟨⟩
  | cons c cs =>
    rintro d ⟨⟩
    obtain ⟨space, indicator⟩ := along.1.first rfl
    refine ⟨space, ?_⟩
    rintro rfl
    simp [Features.isIndicatorFirst] at indicator

/-- At the end of the text nothing more is read. -/
theorem plainFrom_nil (last : p.rest = []) (fuel : Nat) (text : List Char) (g : Gap) :
    plainFrom false margin fuel text g p = some (text, p, g.isBreaks) := by
  cases fuel with
  | zero => rfl
  | succ fuel => simp [plainFrom, last, Place.atDocumentMark, plainWord, Place.advance_zero]

/-- A text is read up to its end. -/
theorem plainScalar_eq (here : p.rest = cs ++ tail) (along : Along Plainly none cs) (some : cs ≠ [])
    (ends : plainWord false tail = .some ([], tail)) (mark : p.atDocumentMark = false)
    (aside : margin ≤ p.column + 1) : ∃ fuel, plainScalar false margin p =
      (plainOn margin fuel cs (p.past cs)).map fun (text, rest) ↦ (String.ofList text, rest) := by
  have enough : cs.length ≤ p.rest.length := by
    rw [here, List.length_append]
    omega
  obtain ⟨fuel, read⟩ := plainFrom_words here along some (first_of_plainly along) ends mark aside enough []
    (.blanks [])
  exact ⟨fuel, by rw [plainScalar, read]; rfl⟩

/-- A key is read up to its colon. -/
theorem plainScalar_key (here : p.rest = cs ++ ':' :: tail) (along : Along Plainly none cs)
    (some : cs ≠ []) (ends : endsWord tail = true) (mark : p.atDocumentMark = false)
    (aside : margin ≤ p.column + 1) :
    plainScalar false margin p = .some (String.ofList cs, p.past cs, false) := by
  have colon : plainWord false (':' :: tail) = .some ([], ':' :: tail) := by
    rw [plainWord]
    simp [isBlank, isBreak, ends]
  obtain ⟨fuel, read⟩ := plainScalar_eq here along some colon mark aside
  rw [read, plainOn, Place.rest_past here]
  rfl

/-- A value is read up to the next line, if it stands outside or if it is the end of the text. -/
theorem plainScalar_value {n : Nat} (here : p.rest = cs ++ '\n' :: (spaces n ++ tail))
    (along : Along Plainly none cs) (some : cs ≠ []) (visible : Visible tail)
    (outside : (n : Int) < margin ∨ tail = []) (mark : p.atDocumentMark = false)
    (aside : margin ≤ p.column + 1) :
    plainScalar false margin p = .some (String.ofList cs, p.past (cs ++ '\n' :: spaces n), true) := by
  obtain ⟨fuel, read⟩ := plainScalar_eq here along some rfl mark aside
  have there : (p.past cs).rest = '\n' :: (spaces n ++ tail) := Place.rest_past here
  have next : (p.past (cs ++ ['\n'])).rest = spaces n ++ tail := Place.rest_past (by simp [here])
  have enough : n ≤ (spaces n ++ tail).length := by
    rw [List.length_append, length_spaces]
    omega
  have passed : gap (p.past cs).rest.length margin (.blanks []) (p.past cs) =
      .some (.breaks (.some '\n') [], p.past (cs ++ '\n' :: spaces n)) := by
    rw [there, List.length_cons, gap, there,
      Place.newline?_of_isBreak there rfl (by decide), ← Place.past_append]
    have indented := @gap_spaces _ _ margin _ _ next visible enough (.breaks (.some '\n') [])
    rw [← Place.past_append, List.append_assoc] at indented
    exact indented
  have column := Place.column_past_spaces p cs isBreak_newline n
  have goes : ((p.past cs).rest.isEmpty || !endsWord (p.past cs).rest) = false := by
    rw [there]
    rfl
  rw [read, plainOn, passed, goes, if_neg (by decide), Option.bind_some]
  dsimp only
  rw [column]
  rcases outside with outside | rfl
  · rw [if_pos outside]
    rfl
  · have last : (p.past (cs ++ '\n' :: spaces n)).rest = [] := Place.rest_past (by simp [here])
    rw [plainFrom_nil last]
    split <;> rfl

end Words

end Troupe.Yaml
