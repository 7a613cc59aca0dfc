import Troupe.Proofs.Yaml.Nodes
import Troupe.Proofs.Yaml.Written

/-!
# Written trees are cut into their tokens

The text of a tree is cut into the tokens of the tree, whatever follows it further out.  A scalar and empty
brackets stand anywhere on a line (`ReadsValue`).  Items and entries stand in a column, in a block that the
first of them opens (`ReadsBlock`), and a block is closed by what follows it further out
(`ReadsBlock.node`).  Only the items of a list under a short key stand in the block around them
(`ReadsBlock.listEntry`).
-/

namespace Troupe.Yaml

/-! ## Values on their own -/

/-- The text of a value that stands behind a mark, with the lines of blocks at some indentation, is cut into
the tokens, whatever follows it. -/
def ReadsValue (text : Nat → List Char) (tokens : List Token) : Prop :=
  ∀ ⦃p : Place⦄ ⦃ts : List Token⦄ ⦃indent : Int⦄ ⦃indents : List Int⦄ ⦃allowed : Bool⦄ ⦃n : Nat⦄
    ⦃more : List Char⦄ ⦃out : Lexer⦄,
    p.rest = text ((max indent 0).toNat + 2) ++ (spaces n ++ more) → Lexer.Next indent n more →
    indent < p.column →
    ((p.past (text ((max indent 0).toNat + 2) ++ spaces n)).column = n →
      Lexer.Settles ⟨p.past (text ((max indent 0).toNat + 2) ++ spaces n), tokens.reverse ++ ts, indent, indents,
        [none], true⟩ out) →
    Lexer.Continues ⟨p, ts, indent, indents, [none], allowed⟩ out

theorem readsValue_text (s : String) : ReadsValue (fun outer ↦ writeText outer s) [textToken s] := by
  intro p ts indent indents allowed n more out here next inside settles
  exact Lexer.continues_text rfl here next inside (settles ((endsLine_writeText _ s).column p n))

theorem readsValue_unquoted {s : String} (unquoted : Unquoted s) :
    ReadsValue (fun _ ↦ s.toList ++ ['\n']) [.scalar s true] := by
  intro p ts indent indents allowed n more out here next inside settles
  have settles := settles ((endsLine_newline _).column p n)
  simp only [List.append_assoc, List.singleton_append] at here settles
  exact Lexer.continues_plain unquoted here next inside settles

theorem readsValue_emptyList : ReadsValue (fun _ ↦ ['[', ']', '\n']) [.flowList, .flowListEnd] := by
  intro p ts indent indents allowed n more out here next inside settles
  have settles := settles (EndsLine.column ⟨['[', ']'], '\n', rfl, rfl⟩ p n)
  refine Lexer.continues_brackets (a := '[') (b := ']') ⟨rfl, rfl⟩ (by decide) ?_ ?_ here next inside settles
  · intro rest here
    simp [Lexer.token, atDocumentMark_of_ne here (by decide) (by decide)]
  · intro p ts keys rest here
    simp [Lexer.token, atDocumentMark_of_ne here (by decide) (by decide)]

theorem readsValue_emptyMap : ReadsValue (fun _ ↦ ['\x7b', '\x7d', '\n']) [.flowMap, .flowMapEnd] := by
  intro p ts indent indents allowed n more out here next inside settles
  have settles := settles (EndsLine.column ⟨['\x7b', '\x7d'], '\n', rfl, rfl⟩ p n)
  refine Lexer.continues_brackets (a := '\x7b') (b := '\x7d') ⟨rfl, rfl⟩ (by decide) ?_ ?_ here next inside
    settles
  · intro rest here
    simp [Lexer.token, atDocumentMark_of_ne here (by decide) (by decide)]
  · intro p ts keys rest here
    simp [Lexer.token, atDocumentMark_of_ne here (by decide) (by decide)]

/-! ## Marks -/

namespace Lexer

section Marks

variable {p : Place} {ts ts' : List Token} {indent : Int} {indents indents' : List Int}
  {rest : List Char} {out : Lexer}

/-- The mark of an item opens a list, if none is open in its column. -/
theorem token_dash (here : p.rest = '-' :: ' ' :: rest)
    (opened : Opened .blockList p.column ts indent indents ts' indents') :
    token ⟨p, ts, indent, indents, [none], true⟩ '-' (' ' :: rest) =
      some ⟨p.past ['-'], .blockEntry :: ts', p.column, indents', [none], true⟩ := by
  have mark : p.atDocumentMark = false := by simp [Place.atDocumentMark, here]
  have block := @openBlock_opened p _ _ _ _ _ _ _ opened [] true
  rw [List.nil_append] at block
  have entry : blockEntry ⟨p, ts, indent, indents, [none], true⟩ =
      some ⟨p.past ['-'], .blockEntry :: ts', p.column, indents', [none], true⟩ := by
    simp only [blockEntry, block]
    rfl
  simp [token, mark, endsWord, isBlank, entry]

/-- The mark of a key opens a map, if none is open in its column. -/
theorem token_question (here : p.rest = '?' :: ' ' :: rest)
    (opened : Opened .blockMap p.column ts indent indents ts' indents') :
    token ⟨p, ts, indent, indents, [none], true⟩ '?' (' ' :: rest) =
      some ⟨p.past ['?'], .key :: ts', p.column, indents', [none], true⟩ := by
  have mark := atDocumentMark_of_ne here (by decide) (by decide)
  have block := @openBlock_opened p _ _ _ _ _ _ _ opened [] true
  rw [List.nil_append] at block
  have key : explicitKey ⟨p, ts, indent, indents, [none], true⟩ =
      some ⟨p.past ['?'], .key :: ts', p.column, indents', [none], true⟩ := by
    simp only [explicitKey, block]
    rfl
  simp [token, mark, endsWord, isBlank, key]

/-- The mark of a value stands in the block of its key. -/
theorem token_colon (here : p.rest = ':' :: ' ' :: rest) (inside : (p.column : Int) ≤ indent) :
    token ⟨p, ts, indent, indents, [none], true⟩ ':' (' ' :: rest) =
      some ⟨p.past [':'], .value :: ts, indent, indents, [none], true⟩ := by
  have mark := atDocumentMark_of_ne here (by decide) (by decide)
  have value : valueMark ⟨p, ts, indent, indents, [none], true⟩ =
      some ⟨p.past [':'], .value :: ts, indent, indents, [none], true⟩ := by
    simp only [valueMark, openBlock]
    simp [inFlow, inside]
    rfl
  simp [token, mark, endsWord, isBlank, value]

/-- A mark leads to what stands behind it. -/
theorem continues_mark {x : Char} {t : Token} {block : Int} (here : p.rest = x :: ' ' :: rest) (solid : Solid rest)
    (line : isBreak x = false)
    (taken : token ⟨p, ts, indent, indents, [none], true⟩ x (' ' :: rest) =
      some ⟨p.past [x], t :: ts', block, indents', [none], true⟩)
    (inside : block ≤ p.column)
    (continues : Continues ⟨p.past [x, ' '], t :: ts', block, indents', [none], true⟩ out) :
    Continues ⟨p, ts, indent, indents, [none], true⟩ out := by
  have there : (p.past [x]).rest = spaces 1 ++ rest := Place.rest_past here
  have aside : block ≤ (p.past [x, ' ']).column := by
    rw [Place.column_past_of_line p (by simpa [line] using isBreak_space)]
    omega
  refine Continues.of_token here taken ?_ (Reaches.of_spaces there solid ?_ (Settles.of_continues ?_ ?_))
  · rw [there]
    exact Nat.le_refl _
  · rintro k ⟨⟩
  · rw [← Place.past_append]
    exact aside
  · rw [← Place.past_append]
    exact continues

end Marks

end Lexer

/-! ## Blocks -/

/-- The tree is written as a block. -/
def isBlock : Data → Bool
  | .list (_ :: _) => true
  | .map (_ :: _) => true
  | _ => false

/-- What is written in a column is cut into the tokens, whatever follows it, in the block of that column.
The block is opened if it is not open, and left open. -/
def ReadsBlock (t : Token) (text : Nat → List Char) (tokens : List Token) : Prop :=
  ∀ ⦃p : Place⦄ ⦃ts ts' : List Token⦄ ⦃indent : Int⦄ ⦃indents indents' : List Int⦄ ⦃n : Nat⦄
    ⦃more : List Char⦄ ⦃out : Lexer⦄,
    p.rest = text p.column ++ (spaces n ++ more) → Lexer.Next p.column n more →
    Opened t p.column ts indent indents ts' indents' →
    ((p.past (text p.column ++ spaces n)).column = n →
      Lexer.Settles ⟨p.past (text p.column ++ spaces n), tokens.reverse ++ ts', p.column, indents', [none],
        true⟩ out) →
    Lexer.Continues ⟨p, ts, indent, indents, [none], true⟩ out

section Blocks

variable {t : Token} {f g : Nat → List Char} {ts us : List Token}

/-- What stands in the same column is in the same block. -/
theorem ReadsBlock.append (first : ReadsBlock t f ts) (second : ReadsBlock t g us)
    (solid : ∀ column rest, Solid (g column ++ rest)) (some : ∀ column, g column ≠ []) :
    ReadsBlock t (fun column ↦ f column ++ (spaces column ++ g column)) (ts ++ us) := by
  intro p ts₀ ts' indent indents indents' n more out here next opened settles
  simp only [List.append_assoc] at here
  have there : (p.past (f p.column ++ spaces p.column)).rest = g p.column ++ (spaces n ++ more) :=
    Place.rest_past (by rw [here, List.append_assoc])
  refine first here ⟨solid _ _, .inl (Int.le_refl _), fun none ↦ ?_⟩ opened fun column ↦ ?_
  · exact absurd (List.append_eq_nil_iff.mp none).1 (some _)
  refine Lexer.Settles.of_continues (by rw [column]) ?_
  have goes := @second (p.past (f p.column ++ spaces p.column)) (ts.reverse ++ ts') (ts.reverse ++ ts') p.column
    indents' indents' n more out
  rw [column] at goes
  refine goes there next (.inl ⟨rfl, rfl, rfl⟩) ?_
  rw [← Place.past_append, ← List.append_assoc us.reverse, ← List.reverse_append]
  simp only [List.append_assoc] at settles ⊢
  exact settles

/-- A tree is cut into its tokens where its text stands.  A block starts where its text starts, and where a
key may begin. -/
def ReadsNode (d : Data) : Prop :=
  ∀ ⦃p : Place⦄ ⦃ts : List Token⦄ ⦃indent : Int⦄ ⦃indents : List Int⦄ ⦃allowed : Bool⦄ ⦃column n : Nat⦄
    ⦃more : List Char⦄ ⦃out : Lexer⦄,
    p.rest = node ((max indent 0).toNat + 2) column d ++ (spaces n ++ more) → Lexer.Next indent n more →
    indent < p.column → (isBlock d = true → allowed = true ∧ p.column = column) →
    ((p.past (node ((max indent 0).toNat + 2) column d ++ spaces n)).column = n →
      Lexer.Settles ⟨p.past (node ((max indent 0).toNat + 2) column d ++ spaces n), (tokens d).reverse ++ ts,
        indent, indents, [none], true⟩ out) →
    Lexer.Continues ⟨p, ts, indent, indents, [none], allowed⟩ out

theorem ReadsValue.node {d : Data} {text : Nat → List Char}
    (shape : ∀ outer column, Yaml.node outer column d = text outer) (value : ReadsValue text (tokens d)) :
    ReadsNode d := by
  intro p ts indent indents allowed column n more out here next inside _ settles
  rw [shape] at here settles
  exact value here next inside settles

/-- The block of a tree is opened and closed. -/
theorem ReadsBlock.node {d : Data} (shape : ∀ outer column, Yaml.node outer column d = f column)
    (whole : tokens d = t :: (ts ++ [.blockEnd])) (isBlock : isBlock d = true) (block : ReadsBlock t f ts) :
    ReadsNode d := by
  intro p ts₀ indent indents allowed column n more out here next inside start settles
  obtain ⟨rfl, rfl⟩ := start isBlock
  rw [shape] at here settles
  have further : (n : Int) < p.column ∨ more = [] := next.outside.imp_left fun le ↦ Int.lt_of_le_of_lt le inside
  have there : (p.past (f p.column ++ spaces n)).rest = more :=
    Place.rest_past (by rw [here, List.append_assoc])
  refine block here ⟨next.solid, further.imp_left Int.le_of_lt, next.last⟩ (.inr ⟨inside, rfl, rfl⟩)
    fun column ↦ ?_
  refine Lexer.Settles.of_block rfl rfl (Int.natCast_nonneg _) ?_ ?_
  · rw [column, there]
    exact further
  · have settles := settles column
    have turned : (t :: (ts ++ [.blockEnd])).reverse ++ ts₀ = .blockEnd :: (ts.reverse ++ t :: ts₀) := by simp
    rw [whole, turned] at settles
    exact settles

end Blocks

/-! ## Items and entries -/

section Parts

variable {d : Data} {k : String}

/-- An item is cut into its mark and its tokens. -/
theorem ReadsNode.item (exact : d.NotFloat) (reads : ReadsNode d) :
    ReadsBlock .blockList (fun column ↦ '-' :: ' ' :: node (column + 2) (column + 2) d)
      (.blockEntry :: tokens d) := by
  intro p ts ts' indent indents indents' n more out here next opened settles
  have here : p.rest = '-' :: ' ' :: (node (p.column + 2) (p.column + 2) d ++ (spaces n ++ more)) := here
  have there : (p.past ['-', ' ']).rest = node (p.column + 2) (p.column + 2) d ++ (spaces n ++ more) :=
    Place.rest_past here
  have aside : (p.past ['-', ' ']).column = p.column + 2 := Place.column_past_of_line p (not_isBreak_of_all rfl)
  have outer : (max (p.column : Int) 0).toNat + 2 = p.column + 2 := by omega
  refine Lexer.continues_mark here (solid_node exact _ _ _) rfl (Lexer.token_dash here opened) (Int.le_refl _) ?_
  refine reads (by rw [outer]; exact there) next (by omega) (fun _ ↦ ⟨rfl, aside⟩) fun column ↦ ?_
  rw [outer, ← Place.past_append] at column ⊢
  have settles := settles column
  rw [List.reverse_cons, List.append_assoc] at settles
  exact settles

/-- A key and a value on lines of their own are cut into their marks and their tokens. -/
theorem ReadsNode.longEntry (exact : d.NotFloat) (reads : ReadsNode d) (k : String) :
    ReadsBlock .blockMap
      (fun column ↦ '?' :: ' ' :: (writeText (column + 2) k ++
        (spaces column ++ ':' :: ' ' :: node (column + 2) (column + 2) d)))
      (.key :: textToken k :: .value :: tokens d) := by
  intro p ts ts' indent indents indents' n more out here next opened settles
  simp only [List.cons_append, List.append_assoc] at here
  have there : (p.past ['?', ' ']).rest = writeText (p.column + 2) k ++ (spaces p.column ++
      ':' :: ' ' :: (node (p.column + 2) (p.column + 2) d ++ (spaces n ++ more))) := Place.rest_past here
  have aside : (p.past ['?', ' ']).column = p.column + 2 := Place.column_past_of_line p (not_isBreak_of_all rfl)
  have outer : (max (p.column : Int) 0).toNat + 2 = p.column + 2 := by omega
  refine Lexer.continues_mark here (solid_writeText _ _ _) rfl (Lexer.token_question here opened)
    (Int.le_refl _) ?_
  -- The mark of the value follows the key in the column of the mark of the key.
  have colon : Lexer.Next p.column p.column
      (':' :: ' ' :: (node (p.column + 2) (p.column + 2) d ++ (spaces n ++ more))) :=
    ⟨solid_cons _ rfl rfl (by decide) (by decide), .inl (Int.le_refl _), by rintro ⟨⟩⟩
  refine readsValue_text k (by rw [outer]; exact there) colon (by omega) fun column ↦ ?_
  rw [outer] at column ⊢
  have mark : ((p.past ['?', ' ']).past (writeText (p.column + 2) k ++ spaces p.column)).rest =
      ':' :: ' ' :: (node (p.column + 2) (p.column + 2) d ++ (spaces n ++ more)) :=
    Place.rest_past (there.trans (List.append_assoc _ _ _).symm)
  have whole : p.past ('?' :: ' ' :: (writeText (p.column + 2) k ++
      (spaces p.column ++ ':' :: ' ' :: node (p.column + 2) (p.column + 2) d)) ++ spaces n) =
        (((p.past ['?', ' ']).past (writeText (p.column + 2) k ++ spaces p.column)).past [':', ' ']).past
          (node (p.column + 2) (p.column + 2) d ++ spaces n) := by
    simp only [← Place.past_append, List.cons_append, List.nil_append, List.append_assoc]
  simp only [whole] at settles
  generalize (p.past ['?', ' ']).past (writeText (p.column + 2) k ++ spaces p.column) = q at column mark settles ⊢
  have behind : (q.past [':', ' ']).rest = node (p.column + 2) (p.column + 2) d ++ (spaces n ++ more) :=
    Place.rest_past mark
  have further : (q.past [':', ' ']).column = p.column + 2 := by
    rw [Place.column_past_of_line q (not_isBreak_of_all rfl), column]
    rfl
  refine Lexer.Settles.of_continues (by rw [column]) ?_
  refine Lexer.continues_mark mark (solid_node exact _ _ _) rfl (Lexer.token_colon mark (by rw [column]))
    (by rw [column]) ?_
  refine reads (by rw [outer]; exact behind) next (by omega) (fun _ ↦ ⟨rfl, further⟩) fun last ↦ ?_
  rw [outer] at last ⊢
  have settles := settles last
  simp only [List.reverse_cons, List.append_assoc] at settles
  exact settles

/-- A short key leads to a value on its line. -/
theorem ReadsNode.shortEntry (exact : d.NotFloat) (flat : isBlock d = false) (reads : ReadsNode d)
    (simple : isSimpleKey k = true) :
    ReadsBlock .blockMap (fun column ↦ writeKey k ++ ':' :: ' ' :: node (column + 2) (column + 2) d)
      (.key :: textToken k :: .value :: tokens d) := by
  intro p ts ts' indent indents indents' n more out here next opened settles
  simp only [List.cons_append, List.append_assoc] at here
  have outer : (max (p.column : Int) 0).toNat + 2 = p.column + 2 := by omega
  have whole : p.past (writeKey k ++ ':' :: ' ' :: node (p.column + 2) (p.column + 2) d ++ spaces n) =
      ((p.past (writeKey k ++ [':'])).past (spaces 1)).past
        (node (p.column + 2) (p.column + 2) d ++ spaces n) := by
    simp [← Place.past_append, spaces]
  have there : (p.past (writeKey k ++ [':'])).rest =
      spaces 1 ++ (node (p.column + 2) (p.column + 2) d ++ (spaces n ++ more)) :=
    Place.rest_past (by rw [here, List.append_assoc]; rfl)
  have aside : p.column < ((p.past (writeKey k ++ [':'])).past (spaces 1)).column := by
    rw [← Place.past_append, Place.column_past_of_line p ?_, List.length_append, length_spaces]
    · omega
    · simp only [List.mem_append]
      rintro c ((key | colon) | space)
      · exact inside_writeKey simple c key
      · rw [List.mem_singleton.mp colon]
        rfl
      · exact not_isBreak_of_mem_spaces c space
  refine Lexer.continues_key simple here rfl opened.le opened ?_
  refine Lexer.Reaches.of_spaces there (solid_node exact _ _ _) (by rintro k ⟨⟩) ?_
  refine Lexer.Settles.of_continues (Int.ofNat_le.mpr (Nat.le_of_lt aside)) ?_
  refine reads (by rw [outer]; exact Place.rest_past there) next (by omega) ?_ fun last ↦ ?_
  · rw [flat]
    rintro ⟨⟩
  · simp only [whole] at settles
    rw [outer] at last ⊢
    have settles := settles last
    simp only [List.reverse_cons, List.append_assoc] at settles
    exact settles

/-- A short key leads to a map on the next lines. -/
theorem ReadsNode.mapEntry (exact : d.NotFloat) (reads : ReadsNode d) (simple : isSimpleKey k = true) :
    ReadsBlock .blockMap
      (fun column ↦ writeKey k ++ ':' :: '\n' :: (spaces (column + 2) ++ node (column + 2) (column + 2) d))
      (.key :: textToken k :: .value :: tokens d) := by
  intro p ts ts' indent indents indents' n more out here next opened settles
  simp only [List.cons_append, List.append_assoc] at here
  have outer : (max (p.column : Int) 0).toNat + 2 = p.column + 2 := by omega
  have whole : p.past (writeKey k ++ ':' :: '\n' :: (spaces (p.column + 2) ++
      node (p.column + 2) (p.column + 2) d) ++ spaces n) =
        ((p.past (writeKey k ++ [':'])).past ('\n' :: spaces (p.column + 2))).past
          (node (p.column + 2) (p.column + 2) d ++ spaces n) := by
    simp [← Place.past_append]
  have there : (p.past (writeKey k ++ [':'])).rest =
      '\n' :: (spaces (p.column + 2) ++ (node (p.column + 2) (p.column + 2) d ++ (spaces n ++ more))) :=
    Place.rest_past (by rw [here, List.append_assoc]; rfl)
  have column : ((p.past (writeKey k ++ [':'])).past ('\n' :: spaces (p.column + 2))).column = p.column + 2 :=
    Place.column_past_spaces _ [] isBreak_newline _
  refine Lexer.continues_key simple here rfl opened.le opened ?_
  refine Lexer.Reaches.of_line there (solid_node exact _ _ _) (by rintro k ⟨⟩) ?_
  refine Lexer.Settles.of_continues (Int.ofNat_le.mpr (Nat.le.intro column.symm)) ?_
  refine reads (by rw [outer]; exact Place.rest_past there) next (by omega) (fun _ ↦ ⟨rfl, column⟩) fun last ↦ ?_
  simp only [whole] at settles
  rw [outer] at last ⊢
  have settles := settles last
  simp only [List.reverse_cons, List.append_assoc] at settles
  exact settles

/-- A short key leads to a list on the next lines, in its own column. -/
theorem ReadsBlock.listEntry {ds : List Data} (some : ds ≠ [])
    (reads : ReadsBlock .blockList (fun column ↦ writeItems true column ds) (tokensItems ds))
    (simple : isSimpleKey k = true) :
    ReadsBlock .blockMap
      (fun column ↦ writeKey k ++ ':' :: '\n' :: (spaces column ++ writeItems true column ds))
      (.key :: textToken k :: .value :: tokensItems ds) := by
  intro p ts ts' indent indents indents' n more out here next opened settles
  simp only [List.cons_append, List.append_assoc] at here
  have whole : p.past (writeKey k ++ ':' :: '\n' :: (spaces p.column ++ writeItems true p.column ds) ++
      spaces n) = ((p.past (writeKey k ++ [':'])).past ('\n' :: spaces p.column)).past
        (writeItems true p.column ds ++ spaces n) := by
    simp [← Place.past_append]
  have there : (p.past (writeKey k ++ [':'])).rest =
      '\n' :: (spaces p.column ++ (writeItems true p.column ds ++ (spaces n ++ more))) :=
    Place.rest_past (by rw [here, List.append_assoc]; rfl)
  have behind : ((p.past (writeKey k ++ [':'])).past ('\n' :: spaces p.column)).rest =
      writeItems true p.column ds ++ (spaces n ++ more) := Place.rest_past there
  have column : ((p.past (writeKey k ++ [':'])).past ('\n' :: spaces p.column)).column = p.column :=
    Place.column_past_spaces _ [] isBreak_newline _
  refine Lexer.continues_key simple here rfl opened.le opened ?_
  refine Lexer.Reaches.of_line there (solid_writeItems some _ _) (by rintro k ⟨⟩) ?_
  refine Lexer.Settles.of_continues (by rw [column]) ?_
  simp only [whole] at settles
  generalize (p.past (writeKey k ++ [':'])).past ('\n' :: spaces p.column) = q at column behind settles ⊢
  have goes := @reads q (.value :: textToken k :: .key :: ts') (.value :: textToken k :: .key :: ts') p.column
    indents' indents' n more out
  rw [column] at goes
  refine goes behind next (.inl ⟨rfl, rfl, rfl⟩) fun last ↦ ?_
  have settles := settles last
  simp only [List.reverse_cons, List.append_assoc] at settles
  exact settles

/-- A tree is cut into its tokens where its text stands, and also if it is a list whose items stand in the
column of a key. -/
structure ReadsTree (d : Data) : Prop where
  /-- the tree is cut into its tokens -/
  node : ReadsNode d
  /-- items are cut into their tokens without those around them -/
  items : ∀ ds, d = .list ds → ds ≠ [] →
    ReadsBlock .blockList (fun column ↦ writeItems true column ds) (tokensItems ds)

theorem ReadsNode.tree (reads : ReadsNode d) (flat : ∀ a as, d ≠ .list (a :: as)) : ReadsTree d := by
  refine ⟨reads, ?_⟩
  rintro (_ | ⟨a, as⟩) rfl full
  · exact absurd rfl full
  · exact absurd rfl (flat a as)

/-- An entry is cut into its marks and its tokens. -/
theorem ReadsTree.entry (exact : d.NotFloat) (reads : ReadsTree d) (k : String) :
    ReadsBlock .blockMap (fun column ↦ entryText column k d) (tokensEntries [(k, d)]) := by
  have entry (other : isIndentless k d = false) :
      tokensEntries [(k, d)] = .key :: textToken k :: .value :: tokens d := by
    rw [tokensEntries_of_marks other, tokensEntries, List.append_nil]
  by_cases simple : isSimpleKey k = true
  · have flat (flat : isBlock d = false) (other : isIndentless k d = false)
        (text : ∀ column, valueText column d = ' ' :: Yaml.node (column + 2) (column + 2) d) :
        ReadsBlock .blockMap (fun column ↦ entryText column k d) (tokensEntries [(k, d)]) := by
      rw [entry other]
      simpa only [entryText, text, if_pos simple] using reads.node.shortEntry exact flat simple
    cases d with
    | null | bool b | int i | uint u | float x | string s => exact flat rfl rfl fun _ ↦ rfl
    | list ds =>
      cases ds with
      | nil => exact flat rfl rfl fun _ ↦ rfl
      | cons d ds =>
        have full := List.cons_ne_nil d ds
        rw [tokensEntries_of_isIndentless simple, tokensEntries, List.append_nil]
        simpa only [entryText, valueText, if_pos simple] using (reads.items _ rfl full).listEntry full simple
    | map es =>
      cases es with
      | nil => exact flat rfl rfl fun _ ↦ rfl
      | cons e es =>
        rw [entry rfl]
        simpa only [entryText, valueText, if_pos simple] using reads.node.mapEntry exact simple
  · have other : isIndentless k d = false := by
      cases d with
      | list ds =>
        cases ds with
        | nil => rfl
        | cons d ds => simpa [isIndentless] using simple
      | _ => rfl
    rw [entry other]
    simpa only [entryText, if_neg simple] using reads.node.longEntry exact k

end Parts

/-! ## Trees -/

mutual

/-- A tree is cut into its tokens. -/
theorem readsTree : (d : Data) → d.Everywhere Data.NotFloat → ReadsTree d
  | .null, _ => ((readsValue_unquoted unquoted_null).node fun _ _ ↦ rfl).tree (by rintro _ _ ⟨⟩)
  | .bool b, _ =>
    ((readsValue_unquoted (unquoted_bool b)).node fun _ _ ↦ by cases b <;> rfl).tree (by rintro _ _ ⟨⟩)
  | .int i, _ => ((readsValue_unquoted (unquoted_int i.toInt)).node fun _ _ ↦ rfl).tree (by rintro _ _ ⟨⟩)
  | .uint u, _ => ((readsValue_unquoted (unquoted_nat u.toNat)).node fun _ _ ↦ rfl).tree (by rintro _ _ ⟨⟩)
  | .float _, exact => exact.elim
  | .string s, _ => ((readsValue_text s).node fun _ _ ↦ rfl).tree (by rintro _ _ ⟨⟩)
  | .list [], _ => (readsValue_emptyList.node fun _ _ ↦ rfl).tree (by rintro _ _ ⟨⟩)
  | .map [], _ => (readsValue_emptyMap.node fun _ _ ↦ rfl).tree (by rintro _ _ ⟨⟩)
  | .list (d :: ds), exact => by
    have items := readsItems (d :: ds) (List.cons_ne_nil d ds) exact.2
    refine ⟨items.node (fun _ _ ↦ rfl) rfl rfl, ?_⟩
    rintro _ ⟨⟩ _
    exact items
  | .map (e :: es), exact =>
    ((readsEntries (e :: es) (List.cons_ne_nil e es) exact.2).node (fun _ _ ↦ rfl) rfl rfl).tree
      (by rintro _ _ ⟨⟩)

/-- The items of a list are cut into their tokens. -/
theorem readsItems : (ds : List Data) → ds ≠ [] → Data.EverywhereItems Data.NotFloat ds →
    ReadsBlock .blockList (fun column ↦ writeItems true column ds) (tokensItems ds)
  | [], full, _ => absurd rfl full
  | [d], _, exact => by
    have item := (readsTree d exact.1).node.item exact.1.root
    simpa [writeItems, tokensItems] using item
  | d :: e :: ds, _, exact => by
    have item := (readsTree d exact.1).node.item exact.1.root
    have items := readsItems (e :: ds) (List.cons_ne_nil e ds) exact.2
    have both := item.append items (solid_writeItems (List.cons_ne_nil e ds)) fun column ↦ by simp [writeItems]
    simpa [writeItems, tokensItems] using both

/-- The entries of a map are cut into their tokens. -/
theorem readsEntries : (es : List (String × Data)) → es ≠ [] → Data.EverywhereEntries Data.NotFloat es →
    ReadsBlock .blockMap (fun column ↦ writeEntries true column es) (tokensEntries es)
  | [], full, _ => absurd rfl full
  | [(k, d)], _, exact => by
    have entry := (readsTree d exact.1).entry exact.1.root k
    have text : (fun column ↦ writeEntries true column [(k, d)]) = fun column ↦ entryText column k d :=
      funext fun column ↦ by rw [writeEntries_cons, writeEntries, List.append_nil]
    rwa [text]
  | (k, d) :: e :: es, _, exact => by
    have entry := (readsTree d exact.1).entry exact.1.root k
    have entries := readsEntries (e :: es) (List.cons_ne_nil e es) exact.2
    have text : (fun column ↦ writeEntries true column ((k, d) :: e :: es)) = fun column ↦
        entryText column k d ++ (spaces column ++ writeEntries true column (e :: es)) :=
      funext fun column ↦ by rw [writeEntries_cons, writeEntries_false]
    rw [text, tokensEntries_cons]
    exact entry.append entries (solid_writeEntries (List.cons_ne_nil e es)) fun column ↦ by
      rw [writeEntries_cons]
      exact List.append_ne_nil_of_left_ne_nil (entryText_ne_nil column e.1 e.2) _

end

/-! ## Documents -/

/-- A lexer at the start of a written tree comes to its end with the tokens of the tree. -/
theorem reaches_node {d : Data} (exact : d.Everywhere Data.NotFloat) {p : Place} (here : p.rest = node 2 0 d)
    (column : p.column = 0) :
    Lexer.Reaches ⟨p, [], -1, [], [none], true⟩
      ⟨p.past (node 2 0 d), (tokens d).reverse, -1, [], [none], true⟩ := by
  have outside (q : Place) : (-1 : Int) ≤ q.column := by omega
  have last : (p.past (node 2 0 d)).rest = [] := Place.rest_past (by rw [here, List.append_nil])
  have behind : p.rest = spaces 0 ++ node 2 0 d := here
  have stays : p.past (spaces 0) = p := rfl
  have solid : Solid (node 2 0 d) := by
    rw [← List.append_nil (node 2 0 d)]
    exact solid_node exact.root 2 0 []
  refine Lexer.Reaches.of_spaces behind solid (by rintro k ⟨⟩) (Lexer.Settles.of_continues (outside _) ?_)
  rw [stays]
  refine (readsTree d exact).node ?_ ⟨solid_nil, .inr rfl, fun _ ↦ rfl⟩ ?_ (fun _ ↦ ⟨rfl, column⟩) fun _ ↦ ?_
  · rw [here]
    exact (List.append_nil _).symm
  · omega
  · have outer : (max (-1 : Int) 0).toNat + 2 = 2 := rfl
    have whole : p.past (node 2 0 d ++ spaces 0) = p.past (node 2 0 d) := by
      rw [spaces, List.replicate_zero, List.append_nil]
    rw [outer, whole, List.append_nil]
    -- No block is open around the tree, so none is closed.
    refine Lexer.Settles.of_continues (outside _) (Lexer.Continues.of_end last ?_)
    rw [Lexer.closeBlocks_of_le (Int.le_refl _)]
    rfl

/-- The text of a tree is cut into the tokens of the tree. -/
theorem ofChars?_node {d : Data} (exact : d.Everywhere Data.NotFloat) :
    Token.ofChars? (node 2 0 d) = some (tokens d) := by
  have readable : (node 2 0 d).all isReadable = true := readable_node 2 0 d exact
  have cut := reaches_node (p := Place.start (node 2 0 d)) exact rfl rfl
  have run := cut ((node 2 0 d).length + 1) (Nat.lt_succ_self _)
  rw [Token.ofChars?, if_pos readable, Lexer.start, run, Option.map_some, List.reverse_reverse]

end Troupe.Yaml
