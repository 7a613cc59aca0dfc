import Mathlib.Algebra.Group.Int.Defs
import Mathlib.Algebra.Group.Nat.Defs
import Troupe.Data.Basic
import Troupe.Word
import Troupe.Binary64.Round

/-!
# Spellings

MessagePack spells one tree in many ways: an integer fits words of several widths, with a sign or without;
a size fits its byte or a wider word; a map sends its entries in any order, and keys come as texts or as
binary strings.  `Spells depth d bytes` says that the bytes are one of the spellings of a tree, with at most
`depth` containers around one another.  It is told by the tables of the format alone; what the reader makes
of bytes is compared with it elsewhere.
-/

namespace Troupe.MessagePack

/-! ## Sizes -/

/-- How the sizes of one kind of thing are spelled: a small size in one byte, and any size in a word that
has room for it, behind a byte that tells the width. -/
structure Sizing where
  /-- the byte of the size zero -/
  base : Nat
  /-- smaller sizes than this fit that byte -/
  bound : Nat
  /-- the bytes that a word follows, each with the width of the word -/
  words : List (UInt8 × Nat)

namespace Sizing

/-- Sizes of texts. -/
def text : Sizing := ⟨0xA0, 32, [(0xD9, 1), (0xDA, 2), (0xDB, 4)]⟩

/-- Sizes of binary strings, none of which fits a byte. -/
def binary : Sizing := ⟨0, 0, [(0xC4, 1), (0xC5, 2), (0xC6, 4)]⟩

/-- Sizes of lists. -/
def list : Sizing := ⟨0x90, 16, [(0xDC, 2), (0xDD, 4)]⟩

/-- Sizes of maps. -/
def map : Sizing := ⟨0x80, 16, [(0xDE, 2), (0xDF, 4)]⟩

/-- The bytes are a spelling of the size `n`. -/
inductive Spells (s : Sizing) (n : Nat) : Bytes → Prop
  | inByte (small : n < s.bound) : Spells s n [UInt8.ofNat (s.base + n)]
  | inWord {first : UInt8} {width : Nat} (form : (first, width) ∈ s.words) (room : n < 256 ^ width) :
    Spells s n (first :: Word.bytes width n)

theorem Spells.ne_nil {s : Sizing} {n : Nat} {header : Bytes} (size : s.Spells n header) :
    header ≠ [] := by
  cases size <;> exact List.cons_ne_nil _ _

end Sizing

/-! ## Integers and keys -/

/-- The bytes that an unsigned word follows, each with the width of the word. -/
def unsignedWords : List (UInt8 × Nat) := [(0xCC, 1), (0xCD, 2), (0xCE, 4), (0xCF, 8)]

/-- The bytes that a signed word follows, each with the width of the word. -/
def signedWords : List (UInt8 × Nat) := [(0xD0, 1), (0xD1, 2), (0xD2, 4), (0xD3, 8)]

/-- The bytes are a spelling of an integer. -/
inductive SpellsInt : Int → Bytes → Prop
  | positive {n : Nat} (small : n < 2 ^ 7) : SpellsInt n [UInt8.ofNat n]
  | negative {i : Int} (low : -2 ^ 5 ≤ i) (negative : i < 0) : SpellsInt i [UInt8.ofNat (i + 2 ^ 8).toNat]
  | unsigned {first : UInt8} {width n : Nat} (form : (first, width) ∈ unsignedWords)
      (room : n < 256 ^ width) : SpellsInt n (first :: Word.bytes width n)
  | signed {first : UInt8} {width : Nat} {i : Int} (form : (first, width) ∈ signedWords)
      (low : -2 ^ (8 * width - 1) ≤ i) (high : i < 2 ^ (8 * width - 1)) :
    SpellsInt i (first :: Word.bytes width (i % 2 ^ (8 * width)).toNat)

theorem SpellsInt.ne_nil {i : Int} {head : Bytes} (spelled : SpellsInt i head) : head ≠ [] := by
  cases spelled <;> exact List.cons_ne_nil _ _

/-- The bytes are a spelling of a key: a text, or a binary string that holds one. -/
inductive SpellsKey (k : String) : Bytes → Prop
  | text {header : Bytes} (size : Sizing.text.Spells (Text.encode k).length header) :
    SpellsKey k (header ++ Text.encode k)
  | binary {header : Bytes} (size : Sizing.binary.Spells (Text.encode k).length header) :
    SpellsKey k (header ++ Text.encode k)

/-! ## Trees -/

mutual

/-- The bytes are a spelling of a tree with at most `depth` containers around one another. -/
inductive Spells : Nat → Data → Bytes → Prop
  | null {depth : Nat} : Spells depth .null [0xC0]
  | no {depth : Nat} : Spells depth (.bool false) [0xC2]
  | yes {depth : Nat} : Spells depth (.bool true) [0xC3]
  | integer {depth : Nat} {i : Int} {d : Data} {bytes : Bytes} (spelled : SpellsInt i bytes)
      (held : Data.ofInt? i = some d) : Spells depth d bytes
  | single {depth : Nat} (word : UInt32) :
    Spells depth (.float (Binary64.ofSingle word)) (0xCA :: Word.bytes 4 word.toNat)
  | double {depth : Nat} (x : Binary64) : Spells depth (.float x) (0xCB :: Word.bytes 8 x.bits.toNat)
  | text {depth : Nat} {s : String} {header : Bytes}
      (size : Sizing.text.Spells (Text.encode s).length header) :
    Spells depth (.string s) (header ++ Text.encode s)
  | list {depth : Nat} {ds : List Data} {header body : Bytes} (size : Sizing.list.Spells ds.length header)
      (items : SpellsItems depth ds body) : Spells (depth + 1) (.list ds) (header ++ body)
  | map {depth : Nat} {sent : List (String × Data)} {header body : Bytes}
      (size : Sizing.map.Spells sent.length header) (entries : SpellsEntries depth sent body) :
    Spells (depth + 1) (.map (Entries.ofList sent)) (header ++ body)

/-- The bytes are spellings of the items of a list, one after the other. -/
inductive SpellsItems : Nat → List Data → Bytes → Prop
  | nil {depth : Nat} : SpellsItems depth [] []
  | cons {depth : Nat} {d : Data} {ds : List Data} {head tail : Bytes} (first : Spells depth d head)
      (others : SpellsItems depth ds tail) : SpellsItems depth (d :: ds) (head ++ tail)

/-- The bytes are spellings of entries, one after the other: of each its key and its value. -/
inductive SpellsEntries : Nat → List (String × Data) → Bytes → Prop
  | nil {depth : Nat} : SpellsEntries depth [] []
  | cons {depth : Nat} {k : String} {d : Data} {es : List (String × Data)} {key head tail : Bytes}
      (named : SpellsKey k key) (first : Spells depth d head) (others : SpellsEntries depth es tail) :
    SpellsEntries depth ((k, d) :: es) (key ++ (head ++ tail))

end

theorem Spells.ne_nil {depth : Nat} {d : Data} {head : Bytes} (spelled : Spells depth d head) :
    head ≠ [] := by
  cases spelled with
  | integer spelled held => exact spelled.ne_nil
  | text size | list size items | map size entries =>
    exact List.append_ne_nil_of_left_ne_nil size.ne_nil _
  | null | no | yes | single word | double x => exact List.cons_ne_nil _ _

mutual

/-- A spelling stays one where more containers may stand around one another. -/
theorem Spells.mono {shallow deep : Nat} (le : shallow ≤ deep) {d : Data} {bytes : Bytes} :
    Spells shallow d bytes → Spells deep d bytes
  | .null => .null
  | .no => .no
  | .yes => .yes
  | .integer spelled held => .integer spelled held
  | .single word => .single word
  | .double x => .double x
  | .text size => .text size
  | .list size items => by
    obtain ⟨more, rfl⟩ := Nat.exists_eq_add_of_le le
    rw [Nat.add_right_comm]
    exact .list size (items.mono (Nat.le_add_right _ _))
  | .map size entries => by
    obtain ⟨more, rfl⟩ := Nat.exists_eq_add_of_le le
    rw [Nat.add_right_comm]
    exact .map size (entries.mono (Nat.le_add_right _ _))

theorem SpellsItems.mono {shallow deep : Nat} (le : shallow ≤ deep) {ds : List Data} {bytes : Bytes} :
    SpellsItems shallow ds bytes → SpellsItems deep ds bytes
  | .nil => .nil
  | .cons first others => .cons (first.mono le) (others.mono le)

theorem SpellsEntries.mono {shallow deep : Nat} (le : shallow ≤ deep) {es : List (String × Data)}
    {bytes : Bytes} : SpellsEntries shallow es bytes → SpellsEntries deep es bytes
  | .nil => .nil
  | .cons named first others => .cons named (first.mono le) (others.mono le)

end

end Troupe.MessagePack
