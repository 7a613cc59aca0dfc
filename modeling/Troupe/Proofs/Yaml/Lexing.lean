import Troupe.Proofs.Yaml.Place
import Troupe.Yaml.Token

/-!
# Going on with a token

A lexer passes over blanks, closes the blocks that end there, and takes the next token.  So there are two
places to go on from: one anywhere (`Reaches`), and one where the next token starts (`Continues`).  What is
shown of tokens is shown backwards: a lexer reaches an end if it does so once it has taken the next token.
-/

namespace Troupe.Yaml

/-- What follows is the start of a token, or nothing. -/
def Solid (rest : List Char) : Prop :=
  ∀ c ∈ rest.head?, isBlank c = false ∧ isBreak c = false ∧ c ≠ '#' ∧ c ≠ byteOrderMark

theorem solid_nil : Solid [] := by
  rintro c ⟨⟩

theorem Solid.visible {rest : List Char} (solid : Solid rest) : Visible rest := fun c head ↦
  ⟨(solid c head).1, (solid c head).2.1⟩

namespace Lexer

/-! ## Blanks -/

section Blanks

variable {p : Place} {rest : List Char} {n : Nat}

/-- Spaces before a token are passed over. -/
theorem skipBlanks_spaces (here : p.rest = spaces n ++ rest) (solid : Solid rest) (fuel : Nat)
    (flow allowed : Bool) : skipBlanks (fuel + 1) flow allowed p = (p.past (spaces n), allowed) := by
  have there : (p.past (spaces n)).rest = rest := Place.rest_past here
  have plain : (p.rest.head? == some byteOrderMark) = false := by
    rw [beq_eq_false_iff_ne, here]
    cases n with
    | zero => exact fun head ↦ (solid _ head).2.2.2 rfl
    | succ n => simp [spaces_succ, byteOrderMark]
  have taken : (p.skipWhile fun c ↦ c == ' ' || ((flow || !allowed) && c == '\t')) = p.past (spaces n) := by
    rw [Place.skipWhile, here, takeWhile_run, length_spaces, Place.past_spaces n here]
    · intro c among
      simp [mem_spaces among]
    · intro c head
      have blank := (solid c head).1
      simp only [isBlank, Bool.or_eq_false_iff] at blank
      simp [blank]
  have comment : (rest.head? == some '#') = false := by
    rw [beq_eq_false_iff_ne]
    exact fun head ↦ (solid _ head).2.2.1 rfl
  have stays : (p.past (spaces n)).newline? = none := Place.newline?_of_visible (there ▸ solid.visible)
  rw [skipBlanks, plain]
  simp only [Bool.and_false, Bool.false_eq_true, if_false, taken, there, comment, stays]

/-- The end of a line is passed over, and where the next token starts a key may begin. -/
theorem skipBlanks_line (here : p.rest = '\n' :: (spaces n ++ rest)) (solid : Solid rest) (fuel : Nat)
    (allowed : Bool) : skipBlanks (fuel + 2) false allowed p = (p.past ('\n' :: spaces n), true) := by
  have next : (p.past ['\n']).rest = spaces n ++ rest := Place.rest_past here
  have stays : (p.skipWhile fun c ↦ c == ' ' || ((false || !allowed) && c == '\t')) = p := by
    rw [Place.skipWhile, here, List.takeWhile_cons_of_neg (by simp)]
    rfl
  have more := skipBlanks_spaces next solid fuel false (allowed || true)
  rw [← Place.past_append, Bool.or_true] at more
  have mark : (some '\n' == some byteOrderMark) = false := by decide
  have comment : (some '\n' == some '#') = false := by decide
  rw [skipBlanks]
  simp only [here, List.head?_cons, mark, Bool.and_false, Bool.false_eq_true, if_false, stays, comment,
    Place.newline?_of_isBreak here rfl (by decide), Bool.not_false, Bool.or_true]
  exact more

end Blanks

/-! ## Blocks -/

section Blocks

variable {l : Lexer} {column : Int}

/-- A block that stands further in is closed. -/
theorem closeBlocks_cons {i : Int} {is : List Int} (outside : l.inFlow = false) (around : l.indents = i :: is)
    (further : column < l.indent) :
    l.closeBlocks column =
      ({ l.emit .blockEnd with indent := i, indents := is } : Lexer).closeBlocks column := by
  have still : ({ l.emit .blockEnd with indent := i, indents := is } : Lexer).inFlow = false := outside
  rw [closeBlocks, closeBlocks, outside, still, around, List.length_cons, closeBlocks.go, if_pos further,
    around]
  rfl

/-- Where no block stands further in, none is closed. -/
theorem closeBlocks_of_le (inside : l.indent ≤ column) : l.closeBlocks column = l := by
  rw [closeBlocks]
  split
  · rfl
  · cases l.indents.length with
    | zero => rfl
    | succ n => rw [closeBlocks.go, if_neg (Int.not_lt.mpr inside)]

/-- Blocks are closed from the inside to the outside. -/
theorem closeBlocks_closeBlocks {further : Int} (le : column ≤ further) (l : Lexer) :
    (l.closeBlocks further).closeBlocks column = l.closeBlocks column := by
  cases outside : l.inFlow with
  | true => simp [closeBlocks, outside]
  | false =>
    induction around : l.indents generalizing l with
    | nil =>
      have none : l.closeBlocks further = l := by simp [closeBlocks, outside, around, closeBlocks.go]
      rw [none]
    | cons i is ih =>
      by_cases closes : further < l.indent
      · rw [closeBlocks_cons outside around closes, closeBlocks_cons outside around (by omega)]
        exact ih _ outside rfl
      · have stays : l.closeBlocks further = l := closeBlocks_of_le (by omega)
        rw [stays]

end Blocks

@[simp] theorem place_closeBlocks (l : Lexer) (column : Int) : (l.closeBlocks column).place = l.place := by
  have each (n : Nat) (l : Lexer) : (closeBlocks.go column n l).place = l.place := by
    induction n generalizing l with
    | zero => rfl
    | succ n ih =>
      rw [closeBlocks.go]
      split
      · exact ih _
      · rfl
  rw [closeBlocks]
  split
  · rfl
  · exact each _ l

/-! ## Steps -/

/-- What is done where the next token starts, or at the end of the text. -/
def goOn (fuel : Nat) (l : Lexer) : Option Lexer :=
  match l.place.rest with
  | [] => (l.closeBlocks (-1)).dropKey
  | c :: rest => (l.token c rest).bind (run fuel)

/-- The lexer has passed over blanks, and nothing is left to do but to take the next token, which leads to
the end. -/
def Continues (l out : Lexer) : Prop := ∀ fuel, l.place.rest.length ≤ fuel → goOn fuel l = some out

/-- The lexer leads to the end. -/
def Reaches (l out : Lexer) : Prop := ∀ fuel, l.place.rest.length < fuel → run fuel l = some out

/-- The lexer has passed over blanks, and leads to the end once blocks were closed. -/
def Settles (l out : Lexer) : Prop := (l.closeBlocks l.place.column).Continues out

section Steps

variable {l l' out : Lexer}

/-- A token is taken. -/
theorem Continues.of_token {c : Char} {rest : List Char} (here : l.place.rest = c :: rest)
    (token : l.token c rest = some l') (shorter : l'.place.rest.length ≤ rest.length)
    (reaches : l'.Reaches out) : l.Continues out := by
  intro fuel enough
  rw [here, List.length_cons] at enough
  rw [goOn, here]
  dsimp only
  rw [token, Option.bind_some]
  exact reaches fuel (by omega)

/-- Blocks are closed at the end of the text. -/
theorem Continues.of_end (here : l.place.rest = []) (ends : (l.closeBlocks (-1)).dropKey = some out) :
    l.Continues out := by
  intro fuel enough
  rw [goOn, here]
  exact ends

theorem Continues.ends (continues : l.Continues out) (here : l.place.rest = []) :
    (l.closeBlocks (-1)).dropKey = some out := by
  have ends := continues l.place.rest.length (Nat.le_refl _)
  rw [goOn, here] at ends
  exact ends

/-- Where no block ends, the next token follows. -/
theorem Settles.of_continues (inside : l.indent ≤ l.place.column) (continues : l.Continues out) :
    l.Settles out := by
  rw [Settles, closeBlocks_of_le inside]
  exact continues

/-- A block ends where something stands further out, and at the end of the text. -/
theorem Settles.of_block {i : Int} {is : List Int} (outside : l.inFlow = false) (around : l.indents = i :: is)
    (block : 0 ≤ l.indent) (further : (l.place.column : Int) < l.indent ∨ l.place.rest = [])
    (settles : ({ l.emit .blockEnd with indent := i, indents := is } : Lexer).Settles out) :
    l.Settles out := by
  by_cases closes : (l.place.column : Int) < l.indent
  · rw [Settles, closeBlocks_cons outside around closes]
    exact settles
  · have last := further.resolve_left closes
    refine Settles.of_continues (Int.not_lt.mp closes) (Continues.of_end last ?_)
    have ends := Continues.ends settles (by rw [place_closeBlocks]; exact last)
    rw [closeBlocks_closeBlocks (by omega)] at ends
    rw [closeBlocks_cons outside around (by omega)]
    exact ends

/-- What was passed over leads to where the next token starts. -/
theorem Reaches.of_settles {p : Place} {allowed : Bool}
    (blanks : skipBlanks (l.place.rest.length + 1) l.inFlow l.keyAllowed l.place = (p, allowed))
    (stale : (l.moveTo p |>.allowKey allowed).dropStaleKeys = some l') (there : l'.place = p)
    (shorter : p.rest.length ≤ l.place.rest.length) (settles : l'.Settles out) : l.Reaches out := by
  intro fuel enough
  obtain ⟨fuel, rfl⟩ : ∃ more, fuel = more + 1 := ⟨fuel - 1, by omega⟩
  have goes := settles fuel (by rw [place_closeBlocks, there]; omega)
  rw [goOn, place_closeBlocks, there] at goes
  rw [run, blanks]
  simp only [stale, Option.bind_some]
  exact goes

end Steps

/-! ## Lines -/

section Lines

variable {p : Place} {ts : List Token} {indent : Int} {indents : List Int} {key : Option KeyPlace}
  {allowed : Bool} {n : Nat} {rest : List Char} {out : Lexer}

/-- A key that need not begin and cannot end any more is forgotten. -/
theorem dropStaleKeys_of_line (stale : ∀ k ∈ key, k.required = false ∧ k.line < p.line) :
    dropStaleKeys ⟨p, ts, indent, indents, [key], allowed⟩ =
      some ⟨p, ts, indent, indents, [none], allowed⟩ := by
  cases key with
  | none => rfl
  | some k =>
    obtain ⟨free, before⟩ := stale k rfl
    have gone : reaches k p = false := by
      rw [reaches, Bool.and_eq_false_iff]
      exact .inl (by simpa using Nat.ne_of_lt before)
    simp [dropStaleKeys, gone, free]

/-- Spaces lead to the next token. -/
theorem Reaches.of_spaces (here : p.rest = spaces n ++ rest) (solid : Solid rest)
    (stale : ∀ k ∈ key, k.required = false ∧ k.line < p.line)
    (settles : Settles ⟨p.past (spaces n), ts, indent, indents, [none], allowed⟩ out) :
    Reaches ⟨p, ts, indent, indents, [key], allowed⟩ out := by
  have same : (p.past (spaces n)).line = p.line := Place.line_past_of_line p not_isBreak_of_mem_spaces
  refine Reaches.of_settles (skipBlanks_spaces here solid _ _ _) (dropStaleKeys_of_line fun k kept ↦ ?_) rfl
    ?_ settles
  · exact ⟨(stale k kept).1, Nat.lt_of_lt_of_eq (stale k kept).2 same.symm⟩
  · rw [Place.rest_past here, here, List.length_append]
    omega

/-- The end of a line leads to the next token, before which a key may begin. -/
theorem Reaches.of_line (here : p.rest = '\n' :: (spaces n ++ rest)) (solid : Solid rest)
    (stale : ∀ k ∈ key, k.required = false ∧ k.line ≤ p.line)
    (settles : Settles ⟨p.past ('\n' :: spaces n), ts, indent, indents, [none], true⟩ out) :
    Reaches ⟨p, ts, indent, indents, [key], allowed⟩ out := by
  have later : p.line < (p.past ('\n' :: spaces n)).line := Place.line_lt_past p [] (spaces n) rfl
  have blanks : skipBlanks (p.rest.length + 1) false allowed p = (p.past ('\n' :: spaces n), true) := by
    rw [here, List.length_cons]
    exact skipBlanks_line here solid _ allowed
  refine Reaches.of_settles blanks (dropStaleKeys_of_line fun k kept ↦ ?_) rfl ?_ settles
  · exact ⟨(stale k kept).1, Nat.lt_of_le_of_lt (stale k kept).2 later⟩
  · have rest : (p.past ('\n' :: spaces n)).rest = rest := Place.rest_past here
    rw [rest, here, List.length_cons, List.length_append]
    omega

end Lines

end Lexer

end Troupe.Yaml
