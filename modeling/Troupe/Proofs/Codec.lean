import Mathlib.Tactic.SplitIfs
import Troupe.Codec

/-!
# Documents are not empty

No format writes a tree as zero bytes: each tree has a first character or a first byte.  So an answer that
has no value part is never the answer of a value (`Format.encode_ne_nil`).  The null value is a document of
each format, and is read back from it (`Format.roundTrips_null`).
-/

namespace Troupe

/-- A text without bytes is the empty text. -/
theorem Text.encode_eq_nil_iff {s : String} : Text.encode s = [] ↔ s = "" :=
  ⟨fun none ↦ Text.encode_injective none, fun empty ↦ empty ▸ rfl⟩

/-- The text of an integer has digits. -/
theorem toString_int_ne_empty (i : Int) : toString i ≠ "" := by
  cases i with
  | ofNat n => exact Nat.repr_ne_empty
  | negSucc n => simp [toString, Int.repr]

/-! ## Floating-point numbers -/

namespace Notation

variable {n : Notation}

theorem positional_ne_empty (n : Notation) (d : Decimal) : n.positional d ≠ "" := by
  rw [positional]
  split
  · simp [Decimal.text]
  · split <;> simp

theorem scientific_ne_empty (n : Notation) (d : Decimal) : n.scientific d ≠ "" := by
  rw [scientific]
  split <;> split <;> simp

/-- The text of a number is not empty, if the texts without digits are not. -/
theorem write_ne_empty (nan : n.nan ≠ "") (infinity : n.infinity ≠ "")
    (minusInfinity : n.minusInfinity ≠ "") (x : Binary64) : n.write x ≠ "" := by
  have magnitude (d : Decimal) : n.writeDecimal d ≠ "" := by
    rw [writeDecimal]
    split
    · exact positional_ne_empty n d
    · exact scientific_ne_empty n d
  rw [write]
  split
  · exact nan
  · split
    · split
      · exact minusInfinity
      · exact infinity
    · have either : (if x.isZero = true then n.positional ⟨0, 0⟩
          else n.writeDecimal (Decimal.shortest n.tie x)) ≠ "" := by
        split
        · exact positional_ne_empty n _
        · exact magnitude _
      dsimp only
      split
      · simp
      · exact either

end Notation

/-! ## Formats -/

theorem Json.chars_ne_nil (d : Data) : Json.chars d ≠ [] := by
  cases d with
  | null => simp [chars]
  | bool b => cases b <;> simp [chars]
  | int i => simpa [chars] using toString_int_ne_empty i.toInt
  | uint u => simp [chars]
  | float x =>
    simpa [chars] using Notation.write_ne_empty (n := floatNotation) (by decide) (by decide)
      (by decide) x
  | string s => simp [chars, writeText]
  | list items => simp [chars]
  | map entries => simp [chars]

theorem Yaml.writeText_ne_nil (indent : Nat) (s : String) : Yaml.writeText indent s ≠ [] := by
  rw [writeText]
  split <;> simp [blockHeader]

/-- A tree ends with the end of its line. -/
theorem Yaml.node_ne_nil (outer column : Nat) (d : Data) : Yaml.node outer column d ≠ [] := by
  cases d with
  | null => simp [node]
  | bool b => cases b <;> simp [node]
  | int i => simp [node]
  | uint u => simp [node]
  | float x => simp [node]
  | string s =>
    rw [node]
    exact writeText_ne_nil outer s
  | list items =>
    cases items with
    | nil => simp [node]
    | cons d rest => simp [node, writeItems]
  | map entries =>
    cases entries with
    | nil => simp [node]
    | cons e rest =>
      obtain ⟨k, d⟩ := e
      by_cases simple : isSimpleKey k <;> simp [node, writeEntries, simple]

namespace MessagePack

theorem natural_ne_nil (n : Nat) : natural n ≠ [] := by
  unfold natural
  split_ifs <;> simp

theorem integer_ne_nil (i : Int) : integer i ≠ [] := by
  unfold integer
  split_ifs
  · exact natural_ne_nil _
  all_goals simp

theorem textHeader_ne_nil (n : Nat) : textHeader n ≠ [] := by
  unfold textHeader
  split_ifs <;> simp

theorem listHeader_ne_nil (n : Nat) : listHeader n ≠ [] := by
  unfold listHeader
  split_ifs <;> simp

theorem mapHeader_ne_nil (n : Nat) : mapHeader n ≠ [] := by
  unfold mapHeader
  split_ifs <;> simp

theorem write_ne_nil (d : Data) : write d ≠ [] := by
  cases d with
  | null => simp [write]
  | bool b => cases b <;> simp [write]
  | int i => simpa [write] using integer_ne_nil i.toInt
  | uint u => simpa [write] using natural_ne_nil u.toNat
  | float x => simp [write]
  | string s => simp [write, text, textHeader_ne_nil]
  | list items => simp [write, listHeader_ne_nil]
  | map entries => simp [write, mapHeader_ne_nil]

end MessagePack

/-- No tree is written as zero bytes. -/
theorem Format.encode_ne_nil (f : Format) (d : Data) : f.encode d ≠ [] := by
  have text {cs : List Char} (some : cs ≠ []) : Text.encode (String.ofList cs) ≠ [] := fun none ↦
    some (by simpa using Text.encode_eq_nil_iff.mp none)
  cases f with
  | json => exact text (Json.chars_ne_nil d)
  | yaml => exact text (Yaml.node_ne_nil 2 0 d)
  | msgpack => exact MessagePack.write_ne_nil d

/-! ## Reading back -/

/-- A format reads back what it wrote of a tree. -/
def Format.RoundTrips (f : Format) (d : Data) : Prop := f.read? (f.encode d) = some d

theorem Format.RoundTrips.decode [Wording] {f : Format} {d : Data} (h : f.RoundTrips d) :
    f.decode (f.encode d) = .ok d :=
  Format.decode_eq_ok_iff.mpr h

/-- The data of a scalar does not depend on how deep it is. -/
theorem Yaml.data_scalar (anchors : Anchors) (depth : Nat) (p : Properties) (plain : Bool) (text : String) :
    Node.data anchors depth (.scalar p plain text) =
      StateT.lift (dataOfScalar? (Sense.ofTag p.tag) plain text) := by
  cases depth <;> (delta Node.data; rfl)

/-- The null value is read back in every format. -/
theorem Format.roundTrips_null (f : Format) : f.RoundTrips .null := by
  rw [RoundTrips]
  cases f with
  | json => rfl
  | yaml =>
    have tokens : Yaml.Token.ofChars? ['n', 'u', 'l', 'l', '\n'] = some [.scalar "null" true] := rfl
    have node : Yaml.Node.ofTokens? [.scalar "null" true] = some (.scalar ⟨none, none⟩ true "null") := rfl
    have data : Yaml.dataOfScalar? (Yaml.Sense.ofTag none) true "null" = some .null := rfl
    have written : Format.yaml.encode .null = Text.encode "null\n" := rfl
    simp [read?, written, Yaml.read?, tokens, node, Yaml.data_scalar, data]
  | msgpack =>
    have form : MessagePack.Form.ofByte 0xC0 = .complete .null := rfl
    simp [read?, encode, MessagePack.write, MessagePack.read?, MessagePack.readFirst?,
      MessagePack.value, form]

end Troupe
