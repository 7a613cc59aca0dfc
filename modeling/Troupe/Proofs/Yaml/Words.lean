import Troupe.Proofs.Yaml.Lexing
import Troupe.Proofs.Yaml.Literal
import Troupe.Proofs.Yaml.Plain
import Troupe.Proofs.Yaml.Quoted

/-!
# Scalars are tokens

A text is one token, in whichever style it is written (`continues_text`), and so are a word and a number;
empty brackets are two tokens.  What follows stands on another line, no further in than the block around
(`Next`).  A key may have begun with each of them, but none needed to, and at the end of the line it is
forgotten.
-/

namespace Troupe.Yaml

/-! ## Marks of documents -/

theorem atDocumentMark_of_ne {p : Place} {c : Char} {rest : List Char} (here : p.rest = c :: rest)
    (dash : c ≠ '-') (point : c ≠ '.') : p.atDocumentMark = false := by
  rw [Place.atDocumentMark, here, Bool.and_eq_false_iff]
  refine .inr ?_
  split
  · next same => exact absurd (List.cons.inj same).1 dash
  · next same => exact absurd (List.cons.inj same).1 point
  · rfl

/-- What stands behind a text is no part of a mark. -/
theorem atDocumentMark_of_plain {p : Place} {cs tail : List Char} {c : Char} (here : p.rest = cs ++ c :: tail)
    (mark : (['-', '-', '-'].isPrefixOf cs || ['.', '.', '.'].isPrefixOf cs) = false) (dash : c ≠ '-')
    (point : c ≠ '.') : p.atDocumentMark = false := by
  rw [Place.atDocumentMark, here, Bool.and_eq_false_iff]
  refine .inr ?_
  rcases cs with _ | ⟨a, _ | ⟨b, _ | ⟨d, cs⟩⟩⟩
  · split <;> simp_all
  · split <;> simp_all
  · split <;> simp_all
  · split <;> simp_all

namespace Lexer

section Scalars

variable {p : Place} {ts : List Token} {indent : Int} {indents : List Int} {allowed : Bool}
  {out : Lexer} {cs tail more : List Char} {n : Nat}

/-- The key that may begin at a place. -/
def noted (p : Place) (ts : List Token) (indent : Int) (allowed : Bool) : Option KeyPlace :=
  if allowed then some ⟨ts.length, p.index, p.line, p.column, indent == (p.column : Int)⟩ else none

theorem markKey_none : markKey ⟨p, ts, indent, indents, [none], allowed⟩ =
    some ⟨p, ts, indent, indents, [noted p ts indent allowed], allowed⟩ := by
  cases allowed <;> rfl

/-- Inside a block no key has to begin. -/
theorem noted_of_lt (inside : indent < p.column) :
    ∀ k ∈ noted p ts indent allowed, k.required = false ∧ k.line = p.line := by
  rintro k kept
  cases allowed with
  | false => cases kept
  | true =>
    obtain rfl := Option.some.inj kept
    exact ⟨beq_eq_false_iff_ne.mpr (Int.ne_of_lt inside), rfl⟩

/-- What a plain text starts with is no indicator. -/
theorem startsPlain_of_first {c : Char} {rest : List Char} (blank : isBlank c = false)
    (inside : isBreak c = false) (other : "#,[]\x7b\x7d&*!|>'\"%@\x60".toList.contains c = false)
    (goes : c = '?' ∨ c = ':' ∨ c = '-' → endsWord rest = false) : startsPlain false c rest = true := by
  by_cases sign : c = '?' ∨ c = ':' ∨ c = '-'
  · have word := goes sign
    cases rest with
    | nil => cases word
    | cons d rest =>
      simp only [endsWord, Bool.or_eq_false_iff] at word
      rcases sign with rfl | rfl | rfl <;> simp [startsPlain, endsWord, word]
  · simp only [not_or] at sign
    simp at other
    simp [startsPlain, blank, inside, other, sign]

/-- A text that is written as it stands is read as it stands. -/
theorem token_plain {c : Char} (along : Along Plainly none (c :: cs)) {d : Char}
    (mark : p.atDocumentMark = false) :
    token ⟨p, ts, indent, indents, [none], allowed⟩ c (cs ++ d :: tail) =
      plain ⟨p, ts, indent, indents, [none], allowed⟩ := by
  obtain ⟨space, indicator⟩ := along.1.first rfl
  simp only [Features.isIndicatorFirst, Bool.or_eq_false_iff] at indicator
  obtain ⟨other, later⟩ := indicator
  have goes (sign : c = '?' ∨ c = ':' ∨ c = '-') : endsWord (cs ++ d :: tail) = false := by
    have word : endsWord cs = false := by rcases sign with rfl | rfl | rfl <;> simpa using later
    rwa [endsWord_append]
    rintro rfl
    cases word
  have starts := startsPlain_of_first (isBlank_eq_false along.1.printable space) along.1.inside other goes
  have dash : ¬ (c = '-' ∧ endsWord (cs ++ d :: tail) = true) := by
    rintro ⟨sign, ends⟩
    simp [goes (.inr (.inr sign))] at ends
  have question : ¬ (c = '?' ∧ endsWord (cs ++ d :: tail) = true) := by
    rintro ⟨sign, ends⟩
    simp [goes (.inl sign)] at ends
  have colon : ¬ (c = ':' ∧ endsWord (cs ++ d :: tail) = true) := by
    rintro ⟨sign, ends⟩
    simp [goes (.inr (.inl sign))] at ends
  simp at other
  simp [token, mark, other, inFlow, starts, dash, question, colon]

/-! ## Values -/

/-- What follows a value: a token on a line that stands no further in than the block around, or nothing. -/
structure Next (indent : Int) (n : Nat) (more : List Char) : Prop where
  /-- a token follows, or nothing -/
  solid : Solid more
  /-- it stands no further in -/
  outside : (n : Int) ≤ indent ∨ more = []
  /-- the text does not end with spaces -/
  last : more = [] → n = 0

/-- A text that is written as it stands is a token. -/
theorem continues_plain {s : String} (unquoted : Unquoted s)
    (here : p.rest = s.toList ++ '\n' :: (spaces n ++ more)) (next : Next indent n more)
    (inside : indent < p.column)
    (settles : Settles ⟨p.past (s.toList ++ '\n' :: spaces n), .scalar s true :: ts, indent, indents, [none],
      true⟩ out) :
    Continues ⟨p, ts, indent, indents, [none], allowed⟩ out := by
  have mark := atDocumentMark_of_plain here unquoted.document (by decide) (by decide)
  have there : (p.past (s.toList ++ '\n' :: spaces n)).rest = more := Place.rest_past (by simp [here])
  have later : p.line < (p.past (s.toList ++ '\n' :: spaces n)).line := Place.line_lt_past p _ _ rfl
  have outside : (n : Int) < indent + 1 ∨ more = [] := next.outside.imp (by omega) id
  obtain ⟨c, cs, first⟩ := unquoted.exists_cons
  have along := unquoted.along
  have taken : plain ⟨p, ts, indent, indents, [none], allowed⟩ =
      some ⟨p.past (s.toList ++ '\n' :: spaces n), .scalar s true :: ts, indent, indents,
        [noted p ts indent allowed], true⟩ := by
    have read := plainScalar_value here along (by simp [first]) next.solid.visible outside mark (by omega)
    rw [plain, markKey_none]
    simp only [Option.bind_eq_bind, Option.bind_some, inFlow, List.length_singleton, Nat.lt_irrefl,
      decide_false, read, String.ofList_toList]
    rfl
  have reaches : Reaches ⟨p.past (s.toList ++ '\n' :: spaces n), .scalar s true :: ts, indent, indents,
      [noted p ts indent allowed], true⟩ out := by
    refine @Reaches.of_spaces _ _ _ _ _ _ 0 more _ there next.solid (fun k kept ↦ ?_) settles
    obtain ⟨free, line⟩ := noted_of_lt inside k kept
    exact ⟨free, line ▸ later⟩
  rw [first] at along
  rw [first, List.cons_append] at here
  refine Continues.of_token here ((token_plain along mark).trans taken) ?_ reaches
  rw [there, List.length_append, List.length_cons, List.length_append]
  omega

theorem token_mark (single : Bool) (here : p.rest = quoteMark single :: tail) (keys : List (Option KeyPlace)) :
    token ⟨p, ts, indent, indents, keys, allowed⟩ (quoteMark single) tail =
      word ⟨p, ts, indent, indents, keys, allowed⟩ fun p ↦
        (quotedScalar single p).map fun (s, p) ↦ (.scalar s false, p) := by
  have mark : p.atDocumentMark = false := by
    refine atDocumentMark_of_ne here ?_ ?_ <;> cases single <;> decide
  cases single <;> simp [token, mark, quoteMark]

/-- A text between quotes is a token. -/
theorem continues_quoted (single : Bool) {s : String} {cs : List Char}
    (read : quotedScalar single p = some (s, p.past (quoteMark single :: cs)))
    (here : p.rest = quoteMark single :: cs ++ '\n' :: (spaces n ++ more)) (next : Next indent n more)
    (inside : indent < p.column)
    (settles : Settles ⟨p.past (quoteMark single :: cs ++ '\n' :: spaces n), .scalar s false :: ts, indent,
      indents, [none], true⟩ out) :
    Continues ⟨p, ts, indent, indents, [none], allowed⟩ out := by
  have there : (p.past (quoteMark single :: cs)).rest = '\n' :: (spaces n ++ more) := Place.rest_past here
  have taken : (word ⟨p, ts, indent, indents, [none], allowed⟩ fun p ↦
      (quotedScalar single p).map fun (s, p) ↦ (.scalar s false, p)) =
      some ⟨p.past (quoteMark single :: cs), .scalar s false :: ts, indent, indents,
        [noted p ts indent allowed], false⟩ := by
    rw [word, markKey_none]
    simp only [Option.bind_eq_bind, Option.bind_some, read, Option.map_some]
    rfl
  have reaches : Reaches ⟨p.past (quoteMark single :: cs), .scalar s false :: ts, indent, indents,
      [noted p ts indent allowed], false⟩ out := by
    rw [Place.past_append] at settles
    refine Reaches.of_line there next.solid (fun k kept ↦ ?_) settles
    obtain ⟨free, line⟩ := noted_of_lt inside k kept
    exact ⟨free, line ▸ Place.line_le_past p _⟩
  rw [List.cons_append] at here
  refine Continues.of_token here ((token_mark single here [none]).trans taken) ?_ reaches
  rw [there, List.length_append]
  omega

/-- A text in a block is a token. -/
theorem continues_block {outer : Nat} {s : String} (style : Style.of s = .literal)
    (deep : outer = (max indent 0).toNat + 2)
    (here : p.rest = blockHeader s.toList ++ '\n' :: (literalBody outer true s.toList ++ (spaces n ++ more)))
    (next : Next indent n more)
    (settles : Settles ⟨p.past (blockHeader s.toList ++ '\n' :: (literalBody outer true s.toList ++ spaces n)),
      .scalar s false :: ts, indent, indents, [none], true⟩ out) :
    Continues ⟨p, ts, indent, indents, [none], allowed⟩ out := by
  obtain ⟨lines, printable⟩ := Style.of_literal style
  have some : s.toList ≠ [] := List.ne_nil_of_mem lines
  have outside : n < outer := by
    rcases next.outside with further | last
    · omega
    · rw [next.last last]
      omega
  have read := blockScalar_literal printable some here deep outside next.solid.visible
  have there : (p.past (blockHeader s.toList ++ '\n' :: (literalBody outer true s.toList ++ spaces n))).rest =
      more := Place.rest_past (by simp [here])
  obtain ⟨signs, header⟩ : ∃ signs, blockHeader s.toList = '|' :: signs := ⟨_, rfl⟩
  have reaches : Reaches ⟨p.past (blockHeader s.toList ++ '\n' :: (literalBody outer true s.toList ++ spaces n)),
      .scalar s false :: ts, indent, indents, [none], true⟩ out := by
    refine @Reaches.of_spaces _ _ _ _ _ _ 0 more _ there next.solid ?_ settles
    rintro k ⟨⟩
  have mark : p.atDocumentMark = false := by
    rw [header] at here
    exact atDocumentMark_of_ne here (by decide) (by decide)
  have taken (rest : List Char) : token ⟨p, ts, indent, indents, [none], allowed⟩ '|' rest =
      .some ⟨p.past (blockHeader s.toList ++ '\n' :: (literalBody outer true s.toList ++ spaces n)),
        .scalar s false :: ts, indent, indents, [none], true⟩ := by
    have block : block ⟨p, ts, indent, indents, [none], allowed⟩ false = .some
        ⟨p.past (blockHeader s.toList ++ '\n' :: (literalBody outer true s.toList ++ spaces n)),
          .scalar s false :: ts, indent, indents, [none], true⟩ := by
      simp only [Lexer.block, dropKey, Option.bind_eq_bind, Option.bind_some, read, String.ofList_toList]
      rfl
    simp [token, mark, inFlow, block]
  have first : p.rest = '|' :: (signs ++ '\n' :: (literalBody outer true s.toList ++ (spaces n ++ more))) := by
    rw [here, header, List.cons_append]
  refine Continues.of_token first (taken _) ?_ reaches
  simp only [there, List.length_append, List.length_cons]
  omega

/-- A text is a token. -/
theorem continues_text {outer : Nat} {s : String} (deep : outer = (max indent 0).toNat + 2)
    (here : p.rest = writeText outer s ++ (spaces n ++ more)) (next : Next indent n more)
    (inside : indent < p.column)
    (settles : Settles ⟨p.past (writeText outer s ++ spaces n), .scalar s (Style.of s = .plain) :: ts, indent,
      indents, [none], true⟩ out) :
    Continues ⟨p, ts, indent, indents, [none], allowed⟩ out := by
  rw [writeText] at here settles
  cases style : Style.of s with
  | plain =>
    simp only [style, List.append_assoc, List.singleton_append, decide_true] at here settles
    exact continues_plain (Style.of_plain style).2 here next inside settles
  | single =>
    obtain ⟨feed, along⟩ := Style.of_single style
    simp only [style, List.cons_append, List.append_assoc, List.nil_append, reduceCtorEq, decide_false]
      at here settles
    have apart : ('\n' :: (spaces n ++ more)).head? ≠ some '\'' := by simp
    have positive : 0 < outer := by omega
    have read := quotedScalar_lines along feed positive here apart
    rw [String.ofList_toList] at read
    refine continues_quoted true read ?_ next inside ?_
    · simp [here, quoteMark]
    · simpa [quoteMark] using settles
  | double =>
    simp only [style, List.cons_append, List.append_assoc, List.nil_append, reduceCtorEq, decide_false,
      doubleBody_eq] at here settles
    have apart : ('\n' :: (spaces n ++ more)).head? ≠ some '\'' := by simp
    have inLine : ∀ c ∈ s.toList, c ≠ ' ' → InWord false c := fun c _ space ↦ ⟨space, by rintro ⟨⟩⟩
    have read := @quotedScalar_line false p _ _ inLine here apart
    rw [String.ofList_toList] at read
    refine continues_quoted false read ?_ next inside ?_
    · rw [here]
      simp [quoteMark]
    · simpa [quoteMark] using settles
  | literal =>
    simp only [style, List.append_assoc, List.cons_append, reduceCtorEq, decide_false] at here settles
    exact continues_block style deep here next settles

/-! ## Brackets -/

/-- A key that began a character before is not forgotten. -/
theorem dropStaleKeys_noted {a : Char} (here : p.rest = a :: tail) (line : isBreak a = false) (t : Token)
    (opened : Bool) :
    dropStaleKeys ⟨p.past [a], t :: ts, indent, indents, [none, noted p ts indent allowed], opened⟩ =
      some ⟨p.past [a], t :: ts, indent, indents, [none, noted p ts indent allowed], opened⟩ := by
  cases allowed with
  | false => rfl
  | true =>
    have near :
        reaches ⟨ts.length, p.index, p.line, p.column, indent == (p.column : Int)⟩ (p.past [a]) = true := by
      have index := @Place.index_past [a] _ p here
      have few := a.utf8Size_le_four
      have same : (p.past [a]).line = p.line := Place.line_past_of_line p (by simpa using line)
      simp only [reaches, same, index, beq_self_eq_true, Bool.true_and, decide_eq_true_eq, List.map_cons,
        List.map_nil, List.sum_cons, List.sum_nil]
      omega
    simp [dropStaleKeys, noted, near]

/-- Brackets around nothing are two tokens. -/
theorem continues_brackets {a b : Char} {s t : Token} (line : isBreak a = false ∧ isBreak b = false)
    (solid : isBlank b = false ∧ b ≠ '#' ∧ b ≠ byteOrderMark)
    (opens : ∀ rest, p.rest = a :: rest → token ⟨p, ts, indent, indents, [none], allowed⟩ a rest =
      openFlow ⟨p, ts, indent, indents, [none], allowed⟩ s)
    (closes : ∀ (p : Place) ts keys rest, p.rest = b :: rest →
      token ⟨p, ts, indent, indents, keys, true⟩ b rest = closeFlow ⟨p, ts, indent, indents, keys, true⟩ t)
    (here : p.rest = a :: b :: '\n' :: (spaces n ++ more)) (next : Next indent n more) (inside : indent < p.column)
    (settles : Settles ⟨p.past (a :: b :: '\n' :: spaces n), t :: s :: ts, indent, indents, [none], true⟩ out) :
    Continues ⟨p, ts, indent, indents, [none], allowed⟩ out := by
  have between : (p.past [a]).rest = b :: '\n' :: (spaces n ++ more) := Place.rest_past here
  have behind : (p.past [a, b]).rest = '\n' :: (spaces n ++ more) := Place.rest_past here
  have first : p.past [a] = p.advance 1 := by
    rw [Place.past, line.1]
    rfl
  have second : p.past [a, b] = (p.past [a]).advance 1 := by
    rw [first, Place.past, line.1, Place.past, line.2]
    rfl
  have opened : token ⟨p, ts, indent, indents, [none], allowed⟩ a (b :: '\n' :: (spaces n ++ more)) =
      some ⟨p.past [a], s :: ts, indent, indents, [none, noted p ts indent allowed], true⟩ := by
    rw [opens _ here, openFlow, markKey_none, first]
    rfl
  have closed : token ⟨p.past [a], s :: ts, indent, indents, [none, noted p ts indent allowed], true⟩ b
      ('\n' :: (spaces n ++ more)) =
        some ⟨p.past [a, b], t :: s :: ts, indent, indents, [noted p ts indent allowed], false⟩ := by
    rw [closes _ _ _ _ between, second]
    rfl
  have reaches : Reaches ⟨p.past [a, b], t :: s :: ts, indent, indents, [noted p ts indent allowed], false⟩
      out := by
    refine Reaches.of_line behind next.solid (fun k kept ↦ ?_) ?_
    · obtain ⟨free, same⟩ := noted_of_lt inside k kept
      exact ⟨free, same ▸ Place.line_le_past p _⟩
    · rw [← Place.past_append]
      exact settles
  have start : Solid (b :: '\n' :: (spaces n ++ more)) := by
    rintro c ⟨⟩
    exact ⟨solid.1, line.2, solid.2⟩
  -- Between brackets no blocks are closed.
  have stays : Settles ⟨p.past [a], s :: ts, indent, indents, [none, noted p ts indent allowed], true⟩ out :=
    Continues.of_token between closed (by rw [behind]) reaches
  refine Continues.of_token here opened (by rw [between]) ?_
  exact Reaches.of_settles (@skipBlanks_spaces _ _ 0 between start _ _ _)
    (dropStaleKeys_noted here line.1 s true) rfl (Nat.le_refl _) stays

end Scalars

end Lexer

end Troupe.Yaml
