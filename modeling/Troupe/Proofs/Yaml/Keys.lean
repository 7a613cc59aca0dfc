import Troupe.Proofs.Text
import Troupe.Proofs.Yaml.Words

/-!
# Keys are tokens

A key on one line with its value is recognised at the colon, if the colon is near enough to where the key
began.  What is written for a character takes at most four times the bytes of the character, so a short key is
near enough (`sum_writeKey`).
-/

namespace Troupe.Yaml

/-! ## Bytes -/

/-- Hexadecimal digits take a byte each. -/
theorem utf8Size_of_mem_hexDigits {width n : Nat} : ∀ d ∈ hexDigits width n, d.utf8Size = 1 := by
  intro d among
  have each : ∀ d < 16, (Char.toUpper d.digitChar).utf8Size = 1 := by decide
  rcases List.mem_append.mp among with zero | digit
  · rw [List.eq_of_mem_replicate zero]
    rfl
  · obtain ⟨c, listed, rfl⟩ := List.mem_map.mp digit
    obtain ⟨d, small, rfl⟩ := Numeral.exists_digitChar_of_mem_toDigits (by decide) listed
    exact each d small

theorem sum_hexDigits {width n : Nat} (positive : 0 < width) (fits : n < 16 ^ width) :
    ((hexDigits width n).map Char.utf8Size).sum = width := by
  have ones : (hexDigits width n).map Char.utf8Size = List.replicate width 1 := by
    refine List.eq_replicate_iff.mpr ⟨by rw [List.length_map, length_hexDigits positive fits], ?_⟩
    intro size among
    obtain ⟨d, listed, rfl⟩ := List.mem_map.mp among
    exact utf8Size_of_mem_hexDigits d listed
  rw [ones]
  simp

/-- An escape takes at most four times the bytes of its character. -/
theorem sum_escape (c : Char) : ((escape c).map Char.utf8Size).sum + 1 ≤ 4 * c.utf8Size := by
  have positive := c.utf8Size_pos
  unfold escape
  split
  case h_16 =>
    have bound : c.toNat < 16 ^ 8 := c.val.toNat_lt
    split_ifs with byte short
    · rw [List.map_cons, List.sum_cons, sum_hexDigits (by decide) byte]
      have letter : Char.utf8Size 'x' = 1 := rfl
      omega
    · rw [List.map_cons, List.sum_cons, sum_hexDigits (by decide) short]
      have letter : Char.utf8Size 'u' = 1 := rfl
      have two : 2 ≤ c.utf8Size := by
        by_contra one
        have ascii := Char.utf8Size_eq_one_iff.mp (show c.utf8Size = 1 by omega)
        exact byte (Nat.lt_of_le_of_lt (UInt32.le_iff_toNat_le.mp ascii) (by decide))
      omega
    · rw [List.map_cons, List.sum_cons, sum_hexDigits (by decide) bound]
      have letter : Char.utf8Size 'U' = 1 := rfl
      have four : c.utf8Size = 4 := by
        refine Char.utf8Size_eq_four_iff.mpr (UInt32.lt_iff_toNat_lt.mpr ?_)
        exact Nat.lt_of_lt_of_le (by decide) (Nat.not_lt.mp short)
      omega
  all_goals
    have letter (d : Char) : ([d].map Char.utf8Size).sum = d.utf8Size := by simp
    rw [letter]
    exact Nat.mul_le_mul_left 4 positive |> Nat.le_trans (by decide)

/-- What is written for a character takes at most four times its bytes. -/
theorem sum_quoted (single : Bool) (c : Char) :
    ((quoted single c).map Char.utf8Size).sum ≤ 4 * c.utf8Size := by
  rw [quoted]
  split_ifs with _ quote
  · rw [quote]
    decide
  · simp
    omega
  · have inside := sum_escape c
    have mark : Char.utf8Size '\\' = 1 := rfl
    rw [List.map_cons, List.sum_cons]
    omega
  · simp
    omega

theorem sum_flatMap_quoted (single : Bool) (cs : List Char) :
    ((cs.flatMap (quoted single)).map Char.utf8Size).sum ≤ 4 * (cs.map Char.utf8Size).sum := by
  induction cs with
  | nil => exact Nat.le_refl 0
  | cons c cs ih =>
    have first := sum_quoted single c
    rw [List.flatMap_cons, List.map_append, List.sum_append, List.map_cons, List.sum_cons]
    omega

/-! ## Written keys -/

theorem inside_of_isSimpleKey {k : String} (simple : isSimpleKey k = true) :
    ∀ c ∈ k.toList, isBreak c = false := by
  simp only [isSimpleKey, Bool.and_eq_true, Bool.not_eq_true', List.any_eq_false] at simple
  exact fun c among ↦ by simpa using simple.1 c among

/-- A short key is written as it stands or between quotes. -/
theorem writeKey_cases {k : String} (simple : isSimpleKey k = true) :
    (Style.of k = .plain ∧ writeKey k = k.toList) ∨
      ∃ single, Style.of k ≠ .plain ∧ (∀ c ∈ k.toList, c ≠ ' ' → InWord single c) ∧
        writeKey k = quoteMark single :: (k.toList.flatMap (quoted single) ++ [quoteMark single]) := by
  have inside := inside_of_isSimpleKey simple
  rw [writeKey]
  cases style : Style.of k with
  | plain => exact .inl ⟨rfl, rfl⟩
  | single =>
    obtain ⟨-, along⟩ := Style.of_single style
    have printable := along.forall_mem (P := fun c ↦ isPrintable c = true) fun _ _ _ h ↦ h.printable
    have body := @singleBody_line 0 _ inside []
    rw [List.append_nil, singleBody, if_neg (by decide), List.append_nil] at body
    refine .inr ⟨true, by decide, fun c among space ↦ ⟨space, fun _ ↦ ⟨printable c among, inside c among⟩⟩, ?_⟩
    simp only [body, quoteMark, if_true, List.cons_append]
  | double | literal =>
    refine .inr ⟨false, by decide, fun c _ space ↦ ⟨space, by rintro ⟨⟩⟩, ?_⟩
    simp [doubleBody_eq, quoteMark]

/-- A short key has one line. -/
theorem inside_writeKey {k : String} (simple : isSimpleKey k = true) : ∀ c ∈ writeKey k, isBreak c = false := by
  rcases writeKey_cases simple with ⟨-, shape⟩ | ⟨single, -, inLine, shape⟩
  · rw [shape]
    exact inside_of_isSimpleKey simple
  · have mark : isBreak (quoteMark single) = false := by cases single <;> rfl
    have body : ∀ d ∈ k.toList.flatMap (quoted single), isBreak d = false := by
      intro d among
      obtain ⟨c, listed, written⟩ := List.mem_flatMap.mp among
      by_cases space : c = ' '
      · have blank : quoted single ' ' = [' '] := by cases single <;> rfl
        rw [space, blank, List.mem_singleton] at written
        rw [written]
        rfl
      · exact inside_quoted (inLine c listed space) d written
    intro d among
    simp only [shape, List.mem_cons, List.mem_append, List.not_mem_nil, or_false] at among
    rcases among with rfl | inner | rfl
    · exact mark
    · exact body d inner
    · exact mark

/-- A short key is near its colon. -/
theorem sum_writeKey {k : String} (simple : isSimpleKey k = true) :
    ((writeKey k).map Char.utf8Size).sum ≤ 1024 := by
  have short : (k.toList.map Char.utf8Size).sum ≤ 128 := by
    simp only [isSimpleKey, Bool.and_eq_true, decide_eq_true_eq, Text.length_encode] at simple
    exact simple.2
  rcases writeKey_cases simple with ⟨-, shape⟩ | ⟨single, -, -, shape⟩
  · rw [shape]
    omega
  · have body := sum_flatMap_quoted single k.toList
    have mark : (quoteMark single).utf8Size = 1 := by cases single <;> rfl
    simp only [shape, List.map_cons, List.map_append, List.sum_cons, List.sum_append, List.map_nil,
      List.sum_nil, mark]
    omega

/-! ## Blocks that keys open -/

/-- A token in a column stands in the block of that column, which it opens if it is not open. -/
def Opened (t : Token) (column : Nat) (ts : List Token) (indent : Int) (indents : List Int)
    (ts' : List Token) (indents' : List Int) : Prop :=
  indent = column ∧ ts' = ts ∧ indents' = indents ∨
    indent < column ∧ ts' = t :: ts ∧ indents' = indent :: indents

theorem Opened.le {t : Token} {column : Nat} {ts ts' : List Token} {indent : Int} {indents indents' : List Int}
    (opened : Opened t column ts indent indents ts' indents') : indent ≤ column := by
  rcases opened with ⟨same, -, -⟩ | ⟨further, -, -⟩
  · exact Int.le_of_eq same
  · exact Int.le_of_lt further

namespace Lexer

section Keys

variable {p : Place} {ts ts' : List Token} {indent : Int} {indents indents' : List Int}
  {rest : List Char} {out : Lexer}

theorem insertIdx_length {α : Type} (late ts : List α) (t : α) :
    (late ++ ts).insertIdx late.length t = late ++ t :: ts := by
  induction late with
  | nil => rfl
  | cons a late ih => rw [List.cons_append, List.length_cons, List.insertIdx_succ_cons, ih, List.cons_append]

/-- A block is opened before the tokens that are in it. -/
theorem openBlock_opened {t : Token} {column : Nat} (opened : Opened t column ts indent indents ts' indents')
    (late : List Token) (allowed : Bool) :
    openBlock ⟨p, late ++ ts, indent, indents, [none], allowed⟩ column ts.length t =
      ⟨p, late ++ ts', column, indents', [none], allowed⟩ := by
  rcases opened with ⟨rfl, rfl, rfl⟩ | ⟨further, rfl, rfl⟩
  · simp [openBlock]
  · have place : (late ++ ts).length - ts.length = late.length := by simp
    simp only [openBlock, inFlow, insertAt, place, insertIdx_length]
    simp [Int.not_le.mpr further]

/-- A short key is a token. -/
theorem token_key {k : String} (simple : isSimpleKey k = true) (here : p.rest = writeKey k ++ ':' :: rest)
    (ends : endsWord rest = true) (inside : indent ≤ p.column) : ∃ c cs, writeKey k = c :: cs ∧
      token ⟨p, ts, indent, indents, [none], true⟩ c (cs ++ ':' :: rest) =
        some ⟨p.past (writeKey k), .scalar k (Style.of k = .plain) :: ts, indent, indents,
          [noted p ts indent true], false⟩ := by
  rcases writeKey_cases simple with ⟨style, shape⟩ | ⟨single, style, inLine, shape⟩
  · obtain ⟨-, unquoted⟩ := Style.of_plain style
    have along := unquoted.along
    obtain ⟨c, cs, first⟩ := unquoted.exists_cons
    rw [shape] at here
    have mark := atDocumentMark_of_plain here unquoted.document (by decide) (by decide)
    have read := @plainScalar_key _ _ _ (indent + 1) here along (by simp [first]) ends mark (by omega)
    rw [String.ofList_toList] at read
    refine ⟨c, cs, by rw [shape, first], ?_⟩
    rw [token_plain (first ▸ along) mark, plain, markKey_none, shape, style]
    simp only [Option.bind_eq_bind, Option.bind_some, inFlow, List.length_singleton, Nat.lt_irrefl,
      decide_false, read]
    rfl
  · rw [shape, List.cons_append, List.append_assoc, List.singleton_append] at here
    have read := quotedScalar_line inLine here (by simp)
    rw [String.ofList_toList] at read
    refine ⟨_, _, shape, ?_⟩
    rw [List.append_assoc, List.singleton_append, token_mark single here, word, markKey_none]
    simp only [Option.bind_eq_bind, Option.bind_some, read, Option.map_some, shape, style, decide_false]
    rfl

/-- At a colon a key began before the token in front of it. -/
theorem valueMark_key {k : KeyPlace} (began : k.token = ts.length)
    (opened : Opened .blockMap k.column ts indent indents ts' indents') (t : Token) (allowed : Bool) :
    valueMark ⟨p, t :: ts, indent, indents, [some k], allowed⟩ =
      some ⟨p.past [':'], .value :: t :: .key :: ts', k.column, indents', [none], false⟩ := by
  have key : (t :: ts).insertIdx ((t :: ts).length - k.token) Token.key = [t] ++ Token.key :: ts := by
    rw [began, List.length_cons, Nat.add_sub_cancel_left]
    exact insertIdx_length [t] ts _
  have block := @openBlock_opened p _ _ _ _ _ _ _ opened [t, .key] allowed
  rw [← began] at block
  rw [valueMark]
  dsimp only
  rw [insertAt, key]
  exact congrArg (fun l : Lexer ↦ some ((l.emit .value).moveTo (l.place.advance 1) |>.allowKey false)) block

/-- A colon that a key is near leads to the value. -/
theorem reaches_colon {k : KeyPlace} {t : Token} (here : p.rest = ':' :: rest) (ends : endsWord rest = true)
    (near : Lexer.reaches k p = true) (began : k.token = ts.length) (inside : indent ≤ p.column)
    (opened : Opened .blockMap k.column ts indent indents ts' indents')
    (reaches : Reaches ⟨p.past [':'], .value :: t :: .key :: ts', k.column, indents', [none], false⟩ out) :
    Reaches ⟨p, t :: ts, indent, indents, [some k], false⟩ out := by
  have mark := atDocumentMark_of_ne here (by decide) (by decide)
  have taken : token ⟨p, t :: ts, indent, indents, [some k], false⟩ ':' rest =
      some ⟨p.past [':'], .value :: t :: .key :: ts', k.column, indents', [none], false⟩ := by
    have value := @valueMark_key p _ _ _ _ _ _ began opened t false
    simpa [token, mark, ends] using value
  have kept : dropStaleKeys ⟨p, t :: ts, indent, indents, [some k], false⟩ =
      some ⟨p, t :: ts, indent, indents, [some k], false⟩ := by
    simp [dropStaleKeys, near]
  have solid : Solid (':' :: rest) := by
    rintro c ⟨⟩
    decide
  have shorter : (p.past [':']).rest.length ≤ rest.length := by
    rw [Place.rest_past here]
  exact Reaches.of_settles (@skipBlanks_spaces p _ 0 here solid _ _ _) kept rfl (Nat.le_refl _)
    (Settles.of_continues inside (Continues.of_token here taken shorter reaches))

/-- A short key leads to its value. -/
theorem continues_key {k : String} (simple : isSimpleKey k = true) (here : p.rest = writeKey k ++ ':' :: rest)
    (ends : endsWord rest = true) (inside : indent ≤ p.column)
    (opened : Opened .blockMap p.column ts indent indents ts' indents')
    (reaches : Reaches ⟨p.past (writeKey k ++ [':']),
      .value :: .scalar k (Style.of k = .plain) :: .key :: ts', p.column, indents', [none], false⟩ out) :
    Continues ⟨p, ts, indent, indents, [none], true⟩ out := by
  obtain ⟨c, cs, shape, taken⟩ := @token_key p ts indent indents rest k simple here ends inside
  have line := inside_writeKey simple
  have column := Place.column_past_of_line p line
  have there : (p.past (writeKey k)).rest = ':' :: rest := Place.rest_past here
  have first : p.rest = c :: (cs ++ ':' :: rest) := by rw [here, shape, List.cons_append]
  -- The colon is on the same line, and not too far away.
  have near : Lexer.reaches ⟨ts.length, p.index, p.line, p.column, indent == (p.column : Int)⟩
      (p.past (writeKey k)) = true := by
    have index := Place.index_past p here
    have few := sum_writeKey simple
    simp only [Lexer.reaches, Place.line_past_of_line p line, index, beq_self_eq_true, Bool.true_and,
      decide_eq_true_eq]
    omega
  rw [Place.past_append] at reaches
  refine Continues.of_token first taken ?_ (reaches_colon there ends near rfl (by omega) opened reaches)
  rw [there, List.length_cons, List.length_append, List.length_cons]
  omega

end Keys

end Lexer

end Troupe.Yaml
