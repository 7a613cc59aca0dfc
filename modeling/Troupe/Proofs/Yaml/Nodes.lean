import Troupe.Yaml.Node
import Troupe.Yaml.Write

/-!
# Trees are read from their tokens

The tokens of a tree (`tokens`) are read as its node (`Node.ofData`), whatever follows them.  The items of a
list under a short key stand between no marks of their own, so they end only where another key or the end of
the map around them follows (`EndsItems`).  Every token that starts a node is told from the marks of items and
entries (`startsNode`), and there is a step for each token at least.
-/

namespace Troupe.Yaml

/-! ## Tokens of trees -/

/-- The token of a text. -/
def textToken (s : String) : Token := .scalar s (Style.of s = .plain)

/-- The tree is a list whose items stand in the column of the key. -/
def isIndentless (k : String) : Data → Bool
  | .list (_ :: _) => isSimpleKey k
  | _ => false

mutual

/-- The tokens of a tree. -/
def tokens : Data → List Token
  | .null => [.scalar "null" true]
  | .bool b => [.scalar (if b then "true" else "false") true]
  | .int i => [.scalar (toString i.toInt) true]
  | .uint u => [.scalar (toString u.toNat) true]
  | .float x => [.scalar (floatNotation.write x) true]
  | .string s => [textToken s]
  | .list [] => [.flowList, .flowListEnd]
  | .list (d :: ds) => .blockList :: (tokensItems (d :: ds) ++ [.blockEnd])
  | .map [] => [.flowMap, .flowMapEnd]
  | .map (e :: es) => .blockMap :: (tokensEntries (e :: es) ++ [.blockEnd])

/-- The tokens of the items of a list. -/
def tokensItems : List Data → List Token
  | [] => []
  | d :: rest => .blockEntry :: (tokens d ++ tokensItems rest)

/-- The tokens of the entries of a map.  The items of a list under a short key stand without its marks. -/
def tokensEntries : List (String × Data) → List Token
  | [] => []
  | (k, d) :: rest => .key :: textToken k :: .value ::
      ((if isIndentless k d then (tokens d).tail.dropLast else tokens d) ++ tokensEntries rest)

end

theorem tokens_indentless (d : Data) (ds : List Data) :
    (tokens (.list (d :: ds))).tail.dropLast = tokensItems (d :: ds) := by
  rw [tokens, List.tail_cons, List.dropLast_concat]

/-- A list whose items stand in the column of its key has some. -/
theorem exists_eq_of_isIndentless {k : String} {d : Data} (indentless : isIndentless k d = true) :
    ∃ a as, d = .list (a :: as) := by
  match d with
  | .list (a :: as) => exact ⟨a, as, rfl⟩

theorem tokensEntries_of_marks {k : String} {d : Data} (marks : isIndentless k d = false)
    (es : List (String × Data)) :
    tokensEntries ((k, d) :: es) = .key :: textToken k :: .value :: (tokens d ++ tokensEntries es) := by
  rw [tokensEntries, marks, if_neg Bool.false_ne_true]

theorem tokensEntries_of_isIndentless {k : String} {d : Data} {ds : List Data}
    (indentless : isIndentless k (.list (d :: ds)) = true) (es : List (String × Data)) :
    tokensEntries ((k, .list (d :: ds)) :: es) =
      .key :: textToken k :: .value :: (tokensItems (d :: ds) ++ tokensEntries es) := by
  rw [tokensEntries, if_pos indentless, tokens_indentless]

theorem tokensEntries_cons (k : String) (d : Data) (es : List (String × Data)) :
    tokensEntries ((k, d) :: es) = tokensEntries [(k, d)] ++ tokensEntries es := by
  simp [tokensEntries]

/-! ## Nodes of trees -/

/-- The node of a text. -/
def Node.ofText (s : String) : Node := .scalar {} (Style.of s = .plain) s

mutual

/-- The node of a tree. -/
def Node.ofData : Data → Node
  | .null => .scalar {} true "null"
  | .bool b => .scalar {} true (if b then "true" else "false")
  | .int i => .scalar {} true (toString i.toInt)
  | .uint u => .scalar {} true (toString u.toNat)
  | .float x => .scalar {} true (floatNotation.write x)
  | .string s => .ofText s
  | .list ds => .list {} (ofItems ds)
  | .map es => .map {} (ofEntries es)

/-- The nodes of the items of a list. -/
def Node.ofItems : List Data → List Node
  | [] => []
  | d :: rest => ofData d :: ofItems rest

/-- The nodes of the entries of a map. -/
def Node.ofEntries : List (String × Data) → List (Node × Node)
  | [] => []
  | (k, d) :: rest => (.ofText k, ofData d) :: ofEntries rest

end

/-! ## First tokens -/

/-- The tokens that start the node of a tree. -/
def startsNode : Token → Bool
  | .scalar _ _ | .flowList | .flowMap | .blockList | .blockMap => true
  | _ => false

theorem exists_tokens_eq_cons (d : Data) : ∃ t ts, tokens d = t :: ts ∧ startsNode t = true := by
  match d with
  | .null | .bool _ | .int _ | .uint _ | .float _ | .string _
  | .list [] | .list (_ :: _) | .map [] | .map (_ :: _) =>
    exact ⟨_, _, by rw [tokens], rfl⟩

/-- What follows ends the items of a list that has no marks of its own. -/
def EndsItems (rest : List Token) : Prop := ∃ t ts, rest = t :: ts ∧ (t = .key ∨ t = .blockEnd)

/-- Behind an entry stands another one or the end of the map. -/
theorem endsItems_tokensEntries (es : List (String × Data)) (rest : List Token) :
    EndsItems (tokensEntries es ++ .blockEnd :: rest) := by
  match es with
  | [] => exact ⟨_, _, rfl, .inr rfl⟩
  | (_, _) :: _ => exact ⟨_, _, by rw [tokensEntries, List.cons_append], .inl rfl⟩

namespace Document

/-! ## Steps -/

section Steps

variable {fuel : Nat} {indentless : Bool} {rest : List Token} {names : Entries Nat}
  {handles : List (String × Bytes)} {n : Node} {d : Document} {a : Data}

theorem node_scalar (s : String) (plain : Bool) :
    node (fuel + 1) true indentless ⟨.scalar s plain :: rest, names, handles⟩ =
      some (.scalar {} plain s, ⟨rest, names, handles⟩) := by
  simp [node, properties, skip]

theorem node_emptyList :
    node (fuel + 2) true indentless ⟨.flowList :: .flowListEnd :: rest, names, handles⟩ =
      some (.list {} [], ⟨rest, names, handles⟩) := by
  simp [node, properties, flowItems, skip]

theorem node_emptyMap :
    node (fuel + 2) true indentless ⟨.flowMap :: .flowMapEnd :: rest, names, handles⟩ =
      some (.map {} [], ⟨rest, names, handles⟩) := by
  simp [node, properties, flowEntries, skip]

theorem node_blockList :
    node (fuel + 1) true indentless ⟨.blockList :: rest, names, handles⟩ =
      (blockItems fuel ⟨rest, names, handles⟩).map fun (ns, d) ↦ (.list {} ns, d) := by
  simp [node, properties, skip]

theorem node_blockMap :
    node (fuel + 1) true indentless ⟨.blockMap :: rest, names, handles⟩ =
      (blockEntries fuel ⟨rest, names, handles⟩).map fun (es, d) ↦ (.map {} es, d) := by
  simp [node, properties, skip]

theorem blockItems_end :
    blockItems (fuel + 1) ⟨.blockEnd :: rest, names, handles⟩ = some ([], ⟨rest, names, handles⟩) := by
  simp [blockItems, skip]

theorem blockEntries_end :
    blockEntries (fuel + 1) ⟨.blockEnd :: rest, names, handles⟩ = some ([], ⟨rest, names, handles⟩) := by
  simp [blockEntries, skip]

theorem indentlessItems_end (ends : EndsItems rest) :
    indentlessItems (fuel + 1) ⟨rest, names, handles⟩ = some ([], ⟨rest, names, handles⟩) := by
  obtain ⟨t, ts, rfl, rfl | rfl⟩ := ends <;> simp [indentlessItems]

theorem blockItems_item
    (item : node fuel true false ⟨Yaml.tokens a ++ rest, names, handles⟩ = some (n, d)) :
    blockItems (fuel + 1) ⟨.blockEntry :: (Yaml.tokens a ++ rest), names, handles⟩ =
      (blockItems fuel d).map fun (ns, d) ↦ (n :: ns, d) := by
  obtain ⟨t, ts, first, starts⟩ := exists_tokens_eq_cons a
  rw [first, List.cons_append] at item ⊢
  cases next : blockItems fuel d <;> cases t <;> simp_all [startsNode, blockItems, skip]

theorem indentlessItems_item
    (item : node fuel true false ⟨Yaml.tokens a ++ rest, names, handles⟩ = some (n, d)) :
    indentlessItems (fuel + 1) ⟨.blockEntry :: (Yaml.tokens a ++ rest), names, handles⟩ =
      (indentlessItems fuel d).map fun (ns, d) ↦ (n :: ns, d) := by
  obtain ⟨t, ts, first, starts⟩ := exists_tokens_eq_cons a
  rw [first, List.cons_append] at item ⊢
  cases next : indentlessItems fuel d <;> cases t <;> simp_all [startsNode, indentlessItems, skip]

theorem blockPart_tokens (a : Data) :
    blockPart (fuel + 1) ⟨Yaml.tokens a ++ rest, names, handles⟩ =
      node fuel true true ⟨Yaml.tokens a ++ rest, names, handles⟩ := by
  obtain ⟨t, ts, first, starts⟩ := exists_tokens_eq_cons a
  rw [first, List.cons_append]
  cases t <;> simp_all [startsNode, blockPart]

theorem blockPart_items :
    blockPart (fuel + 2) ⟨.blockEntry :: rest, names, handles⟩ =
      (indentlessItems fuel ⟨.blockEntry :: rest, names, handles⟩).map fun (ns, d) ↦ (.list {} ns, d) := by
  simp [blockPart, node, properties]

theorem blockPart_text (s : String) :
    blockPart (fuel + 2) ⟨textToken s :: rest, names, handles⟩ = some (.ofText s, ⟨rest, names, handles⟩) := by
  rw [Node.ofText, textToken, blockPart]
  exact node_scalar s _

/-- An entry is read as its key and its value. -/
theorem blockEntries_entry (k : String)
    (value : blockPart (fuel + 2) ⟨rest, names, handles⟩ = some (n, d)) :
    blockEntries (fuel + 3) ⟨.key :: textToken k :: .value :: rest, names, handles⟩ =
      (blockEntries (fuel + 2) d).map fun (es, d) ↦ ((.ofText k, n) :: es, d) := by
  rw [blockEntries]
  cases next : blockEntries (fuel + 2) d <;> simp [skip, blockPart_text, value, next]

end Steps

end Document

/-! ## Trees -/

section Trees

open Document (blockItems indentlessItems blockEntries blockPart)

variable (names : Entries Nat) (handles : List (String × Bytes))

mutual

/-- A tree is read from its tokens. -/
theorem node_tokens (d : Data) (indentless : Bool) (rest : List Token) (fuel : Nat)
    (enough : (tokens d).length ≤ fuel) :
    Document.node fuel true indentless ⟨tokens d ++ rest, names, handles⟩ =
      some (.ofData d, ⟨rest, names, handles⟩) := by
  match d with
  | .null | .bool _ | .int _ | .uint _ | .float _ | .string _ =>
    simp only [tokens, textToken, List.length_cons, List.length_nil] at enough ⊢
    obtain ⟨fuel, rfl⟩ : ∃ more, fuel = more + 1 := ⟨fuel - 1, by omega⟩
    exact Document.node_scalar _ _
  | .list [] =>
    simp only [tokens, List.length_cons, List.length_nil] at enough ⊢
    obtain ⟨fuel, rfl⟩ : ∃ more, fuel = more + 2 := ⟨fuel - 2, by omega⟩
    exact Document.node_emptyList
  | .map [] =>
    simp only [tokens, List.length_cons, List.length_nil] at enough ⊢
    obtain ⟨fuel, rfl⟩ : ∃ more, fuel = more + 2 := ⟨fuel - 2, by omega⟩
    exact Document.node_emptyMap
  | .list (d :: ds) =>
    simp only [tokens, List.length_cons, List.length_append, List.length_nil] at enough
    obtain ⟨fuel, rfl⟩ : ∃ more, fuel = more + 1 := ⟨fuel - 1, by omega⟩
    have items := blockItems_tokens (d :: ds) rest fuel (by omega)
    rw [tokens, List.cons_append, List.append_assoc, Document.node_blockList, List.singleton_append, items]
    rfl
  | .map (e :: es) =>
    simp only [tokens, List.length_cons, List.length_append, List.length_nil] at enough
    obtain ⟨fuel, rfl⟩ : ∃ more, fuel = more + 1 := ⟨fuel - 1, by omega⟩
    have entries := blockEntries_tokens (e :: es) rest fuel (by omega)
    rw [tokens, List.cons_append, List.append_assoc, Document.node_blockMap, List.singleton_append, entries]
    rfl

/-- The items of a list are read up to and with its end. -/
theorem blockItems_tokens (ds : List Data) (rest : List Token) (fuel : Nat)
    (enough : (tokensItems ds).length < fuel) :
    blockItems fuel ⟨tokensItems ds ++ .blockEnd :: rest, names, handles⟩ =
      some (Node.ofItems ds, ⟨rest, names, handles⟩) := by
  match ds with
  | [] =>
    obtain ⟨fuel, rfl⟩ : ∃ more, fuel = more + 1 := ⟨fuel - 1, by omega⟩
    exact Document.blockItems_end
  | d :: ds =>
    obtain ⟨fuel, rfl⟩ : ∃ more, fuel = more + 1 := ⟨fuel - 1, by omega⟩
    simp only [tokensItems, List.length_cons, List.length_append] at enough
    have item := node_tokens d false (tokensItems ds ++ .blockEnd :: rest) fuel (by omega)
    have items := blockItems_tokens ds rest fuel (by omega)
    rw [tokensItems, List.cons_append, List.append_assoc, Document.blockItems_item item, items]
    rfl

/-- The items of a list without marks of its own are read up to what ends them. -/
theorem indentlessItems_tokens (ds : List Data) {rest : List Token} (ends : EndsItems rest) (fuel : Nat)
    (enough : (tokensItems ds).length < fuel) :
    indentlessItems fuel ⟨tokensItems ds ++ rest, names, handles⟩ =
      some (Node.ofItems ds, ⟨rest, names, handles⟩) := by
  match ds with
  | [] =>
    obtain ⟨fuel, rfl⟩ : ∃ more, fuel = more + 1 := ⟨fuel - 1, by omega⟩
    exact Document.indentlessItems_end ends
  | d :: ds =>
    obtain ⟨fuel, rfl⟩ : ∃ more, fuel = more + 1 := ⟨fuel - 1, by omega⟩
    simp only [tokensItems, List.length_cons, List.length_append] at enough
    have item := node_tokens d false (tokensItems ds ++ rest) fuel (by omega)
    have items := indentlessItems_tokens ds ends fuel (by omega)
    rw [tokensItems, List.cons_append, List.append_assoc, Document.indentlessItems_item item, items]
    rfl

/-- The entries of a map are read up to and with its end. -/
theorem blockEntries_tokens (es : List (String × Data)) (rest : List Token) (fuel : Nat)
    (enough : (tokensEntries es).length < fuel) :
    blockEntries fuel ⟨tokensEntries es ++ .blockEnd :: rest, names, handles⟩ =
      some (Node.ofEntries es, ⟨rest, names, handles⟩) := by
  match es with
  | [] =>
    obtain ⟨fuel, rfl⟩ : ∃ more, fuel = more + 1 := ⟨fuel - 1, by omega⟩
    exact Document.blockEntries_end
  | (k, d) :: es =>
    cases marks : isIndentless k d with
    | false =>
      rw [tokensEntries_of_marks marks] at enough ⊢
      simp only [List.length_cons, List.length_append] at enough
      obtain ⟨fuel, rfl⟩ : ∃ more, fuel = more + 3 := ⟨fuel - 3, by omega⟩
      have value := node_tokens d true (tokensEntries es ++ .blockEnd :: rest) (fuel + 1) (by omega)
      have entries := blockEntries_tokens es rest (fuel + 2) (by omega)
      rw [← Document.blockPart_tokens] at value
      simp only [List.cons_append, List.append_assoc]
      rw [Document.blockEntries_entry k value, entries]
      rfl
    | true =>
      obtain ⟨a, as, rfl⟩ := exists_eq_of_isIndentless marks
      rw [tokensEntries_of_isIndentless marks] at enough ⊢
      simp only [List.length_cons, List.length_append] at enough
      obtain ⟨fuel, rfl⟩ : ∃ more, fuel = more + 3 := ⟨fuel - 3, by omega⟩
      have items := indentlessItems_tokens (a :: as) (endsItems_tokensEntries es rest) fuel (by omega)
      have entries := blockEntries_tokens es rest (fuel + 2) (by omega)
      have value : blockPart (fuel + 2)
          ⟨tokensItems (a :: as) ++ (tokensEntries es ++ .blockEnd :: rest), names, handles⟩ =
            some (.ofData (.list (a :: as)), ⟨tokensEntries es ++ .blockEnd :: rest, names, handles⟩) := by
        rw [tokensItems, List.cons_append] at items ⊢
        rw [Document.blockPart_items, items]
        rfl
      simp only [List.cons_append, List.append_assoc]
      rw [Document.blockEntries_entry k value, entries]
      rfl

end

end Trees

/-- The tokens of a tree hold one document, its node. -/
theorem ofTokens?_tokens (d : Data) : Node.ofTokens? (tokens d) = some (.ofData d) := by
  have read := node_tokens [] Document.defaultHandles d false [] (4 * (tokens d).length + 4) (by omega)
  rw [List.append_nil] at read
  obtain ⟨t, ts, first, starts⟩ := exists_tokens_eq_cons d
  rw [first] at read ⊢
  cases t <;> simp_all [startsNode, Node.ofTokens?, Document.start, Document.isOver]

end Troupe.Yaml
