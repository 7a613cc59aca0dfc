import Troupe.Proofs.Yaml.Layout
import Troupe.Proofs.Yaml.Scalar

/-!
# YAML is read as it was written

A tree without floating-point numbers that is not too deep is read back from its text, every integer in its
preferred form: the text is cut into the tokens of the tree, these are read as its node, and the node holds
the data.  No node of a written tree is an alias, so nothing is followed (`data_ofData`).
-/

namespace Troupe.Yaml

open Data (Everywhere EverywhereItems EverywhereEntries NotFloat)

/-! ## Nodes without aliases -/

section Nodes

variable {anchors : Anchors} {depth : Nat}

/-- The data of a scalar without a tag is what its characters stand for. -/
theorem data_untagged {plain : Bool} {text : String} {d : Data}
    (read : dataOfScalar? .nothing plain text = some d) :
    Node.data anchors depth (.scalar {} plain text) = pure d := by
  have untagged : Sense.ofTag ({} : Properties).tag = .nothing := rfl
  rw [data_scalar, untagged, read]
  rfl

/-- A list is read item by item. -/
theorem data_list (items : List Node) :
    Node.data anchors (depth + 1) (.list {} items) = Data.list <$> items.mapM (Node.data anchors depth) := by
  delta Node.data
  rfl

/-- Puts an entry into those before it. -/
def putEntry (anchors : Anchors) (depth : Nat) (es : Entries Data) (entry : Node × Node) :
    Following (Entries Data) := do
  let k ← entry.1.key anchors
  return Entries.insert k (← Node.data anchors depth entry.2) es

/-- A map is read entry by entry. -/
theorem data_map (entries : List (Node × Node)) :
    Node.data anchors (depth + 1) (.map {} entries) =
      Data.map <$> entries.foldlM (putEntry anchors depth) [] := by
  have put : putEntry anchors depth = fun es entry ↦ do
      let k ← entry.1.key anchors
      return Entries.insert k (← Node.data anchors depth entry.2) es := rfl
  rw [put]
  delta Node.data
  rfl

theorem putEntry_ofText {es : Entries Data} {k : String} {n : Node} {d : Data}
    (read : Node.data anchors depth n = pure d) :
    putEntry anchors depth es (.ofText k, n) = pure (Entries.insert k d es) := by
  have key : (Node.ofText k).key anchors = pure k := rfl
  rw [putEntry, key, pure_bind, read, pure_bind]

end Nodes

/-! ## Trees -/

section Trees

variable (anchors : Anchors)

mutual

/-- The node of a tree holds its data, every integer in its preferred form. -/
theorem data_ofData (d : Data) (ordered : d.Everywhere Data.Sorted) (exact : d.Everywhere NotFloat)
    {depth : Nat} (shallow : d.depth ≤ depth) :
    Node.data anchors depth (.ofData d) = pure d.normalize := by
  match d with
  | .null => exact data_untagged rfl
  | .bool b => cases b <;> exact data_untagged rfl
  | .int i => exact data_untagged (dataOfScalar?_int i)
  | .uint u => exact data_untagged (dataOfScalar?_uint u)
  | .float x => exact exact.elim
  | .string s => exact data_untagged (dataOfScalar?_text s)
  | .list ds =>
    rw [Data.depth] at shallow
    obtain ⟨depth, rfl⟩ : ∃ deeper, depth = deeper + 1 := ⟨depth - 1, by omega⟩
    rw [Node.ofData, data_list, mapM_ofItems ds ordered.2 exact.2 (by omega)]
    rfl
  | .map es =>
    rw [Data.depth] at shallow
    obtain ⟨depth, rfl⟩ : ∃ deeper, depth = deeper + 1 := ⟨depth - 1, by omega⟩
    rw [Node.ofData, data_map, foldlM_ofEntries es ordered.1 ordered.2 exact.2 (by omega) (by simp)]
    rfl

/-- The nodes of the items of a list hold their data. -/
theorem mapM_ofItems (ds : List Data) (ordered : EverywhereItems Data.Sorted ds)
    (exact : EverywhereItems NotFloat ds) {depth : Nat} (shallow : Data.depthItems ds ≤ depth) :
    (Node.ofItems ds).mapM (Node.data anchors depth) = pure (Data.normalizeItems ds) := by
  match ds with
  | [] => rfl
  | d :: ds =>
    rw [Data.depthItems] at shallow
    rw [Node.ofItems, List.mapM_cons, data_ofData d ordered.1 exact.1 (by omega), pure_bind,
      mapM_ofItems ds ordered.2 exact.2 (by omega), pure_bind]
    rfl

/-- The nodes of the entries of a map hold their data, each key with the characters it was written with. -/
theorem foldlM_ofEntries (es : List (String × Data)) (sorted : Entries.Sorted es)
    (ordered : EverywhereEntries Data.Sorted es) (exact : EverywhereEntries NotFloat es) {depth : Nat}
    (shallow : Data.depthEntries es ≤ depth) {before : Entries Data}
    (after : ∀ a ∈ before, ∀ e ∈ es, a.1 < e.1) :
    (Node.ofEntries es).foldlM (putEntry anchors depth) before = pure (before ++ Data.normalizeEntries es) := by
  match es with
  | [] =>
    rw [Data.normalizeEntries, List.append_nil]
    rfl
  | (k, d) :: es =>
    rw [Data.depthEntries] at shallow
    have value : Node.data anchors depth (.ofData d) = pure d.normalize :=
      data_ofData d ordered.1 exact.1 (by omega)
    rw [Node.ofEntries, List.foldlM_cons, putEntry_ofText value, pure_bind, Entries.insert_of_after after,
      foldlM_ofEntries es (List.pairwise_cons.mp sorted).2 ordered.2 exact.2 (by omega)
        (Entries.lt_of_sorted_cons after sorted _), List.append_assoc]
    rfl

end

end Trees

theorem read?_write {d : Data} (ordered : d.Ordered) (exact : d.Everywhere NotFloat)
    (shallow : d.depth ≤ maxDepth) : read? (write d) = some d.normalize := by
  have data := data_ofData (Node.ofData d).anchored.reverse d ordered exact shallow
  rw [read?, write, String.toList_ofList, ofChars?_node exact]
  simp only [Option.bind_eq_bind, Option.bind_some, ofTokens?_tokens, data]
  rfl

/-- A tree without floating-point numbers that is not too deep is read back from its document, every
integer in its preferred form: no text or key reads as anything else, and none loses a character. -/
theorem decode_document [Wording] {d : Data} (ordered : d.Ordered) (exact : d.Everywhere NotFloat)
    (shallow : d.depth ≤ maxDepth) : Format.yaml.decode (Format.yaml.encode d) = .ok d.normalize := by
  rw [Format.decode_eq_ok_iff, Format.read?, Format.encode, Text.decode?_encode, Option.bind_some,
    read?_write ordered exact shallow]

/-- A document with texts and keys of every style, and with every kind of data but floating-point numbers. -/
def sample : Data := .map [
  ("", .list [.null, .bool true, .bool false, .list [], .map []]),
  (" lead", .string "trail "),
  ("- x: y", .list [.string "null", .string "~", .string "Yes", .string "true", .string "0x1F", .string "-.inf"]),
  ("12", .list [.int Int64.minValue, .uint 7, .uint 0x8000000000000000]),
  ("a\nb", .map [("#", .string ""), ("k", .list [.list [.string "one\ntwo\n\n"], .string "\n  deep"])]),
  ("it's", .string "\"quoted\": \\ \t\r\x07"),
  ("é", .string "漢 🎭")]

attribute [local instance] Wording.brief

theorem decode_document_sample :
    sample.Ordered ∧ sample.Everywhere NotFloat ∧ sample.depth ≤ maxDepth ∧
      Format.yaml.decode (Format.yaml.encode sample) = .ok (.map [
        ("", .list [.null, .bool true, .bool false, .list [], .map []]),
        (" lead", .string "trail "),
        ("- x: y", .list [.string "null", .string "~", .string "Yes", .string "true", .string "0x1F",
          .string "-.inf"]),
        ("12", .list [.int Int64.minValue, .int 7, .uint 0x8000000000000000]),
        ("a\nb", .map [("#", .string ""), ("k", .list [.list [.string "one\ntwo\n\n"], .string "\n  deep"])]),
        ("it's", .string "\"quoted\": \\ \t\r\x07"),
        ("é", .string "漢 🎭")]) := by
  have ordered : sample.Ordered := by decide
  have exact : sample.Everywhere NotFloat := by decide
  have shallow : sample.depth ≤ maxDepth := by decide
  refine ⟨ordered, exact, shallow, (decode_document ordered exact shallow).trans ?_⟩
  cbv

end Troupe.Yaml
