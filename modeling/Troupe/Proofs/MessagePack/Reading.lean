import Mathlib.Tactic.FinCases
import Troupe.Codec
import Troupe.Proofs.MessagePack.Form
import Troupe.Proofs.MessagePack.Spelling
import Troupe.Proofs.Text

/-!
# What is read is what is spelled

The reader accepts the spellings of the format and nothing else.  Whatever bytes a tree is read from, they
start with a spelling of it (`exists_of_value`), and a spelling is read as its tree, whatever bytes stand
behind it (`value_of_spelled`).  So no spelling is the start of another one (`Spells.unique`).

Two facts about each table of the format carry this: what a first byte can be where the reader takes it for
a form (`Form.shown_ofByte`), and that the reader takes the bytes of a table for the forms of the table.
-/

namespace Troupe.MessagePack

/-! ## Numbers in words -/

/-- The number of an unsigned word in its preferred form. -/
theorem ofInt?_natural {n : Nat} (room : n < 2 ^ 64) :
    Data.ofInt? n = some (.ofUInt64 (UInt64.ofNat n)) := by
  have number : (UInt64.ofNat n).toNat = n := UInt64.toNat_ofNat_of_lt' room
  rw [Data.ofInt?, Data.ofUInt64, number]
  by_cases small : n < 2 ^ 63
  · rw [if_pos (by omega), if_pos (by omega)]
    rfl
  · rw [if_neg (by omega), if_pos (by omega), if_neg (by omega)]
    rfl

section Words

variable {first : UInt8} {width : Nat}

/-- An unsigned word has eight bytes at most. -/
theorem unsigned_room (form : (first, width) ∈ unsignedWords) {n : Nat} (room : n < 256 ^ width) :
    n < 2 ^ 64 := by
  fin_cases form <;> exact room.trans_le (by decide)

theorem width_of_signed (form : (first, width) ∈ signedWords) :
    width = 1 ∨ width = 2 ∨ width = 4 ∨ width = 8 := by
  fin_cases form <;> decide

/-- The number of a signed word is in range, and has the word as its two's complement. -/
theorem signed_range (form : (first, width) ∈ signedWords) {n : Nat} (room : n < 256 ^ width) :
    -2 ^ (8 * width - 1) ≤ signed width n ∧ signed width n < 2 ^ (8 * width - 1) ∧
      (signed width n % 2 ^ (8 * width)).toNat = n := by
  rcases width_of_signed form with rfl | rfl | rfl | rfl <;> rw [signed] <;> split <;> omega

variable {i : Int} (form : (first, width) ∈ signedWords) (low : -2 ^ (8 * width - 1) ≤ i)
  (high : i < 2 ^ (8 * width - 1))
include form low high

/-- A number in range is the number of its two's complement. -/
theorem signed_complement :
    (i % 2 ^ (8 * width)).toNat < 256 ^ width ∧ signed width (i % 2 ^ (8 * width)).toNat = i := by
  rcases width_of_signed form with rfl | rfl | rfl | rfl <;> rw [signed] <;> split <;> omega

theorem ofInt?_signed : Data.ofInt? i = some (.int (Int64.ofInt i)) := by
  rw [Data.ofInt?, if_pos]
  rcases width_of_signed form with rfl | rfl | rfl | rfl <;> omega

end Words

/-! ## First bytes -/

theorem Sizing.spells_byte {s : Sizing} {first : UInt8} (low : s.base ≤ first.toNat)
    (high : first.toNat - s.base < s.bound) : s.Spells (first.toNat - s.base) [first] := by
  have spelled := Spells.inByte high
  rwa [Nat.add_sub_cancel' low, UInt8.ofNat_toNat] at spelled

/-- What a first byte is in the tables of the format, where it announces a form. -/
def Form.Shown (first : UInt8) : Form → Prop
  | .complete d => ∀ depth, Spells depth d [first]
  | .unsigned width => (first, width) ∈ unsignedWords
  | .signed width => (first, width) ∈ signedWords
  | .single => first = 0xCA
  | .double => first = 0xCB
  | .text n => Sizing.text.Spells n [first]
  | .textOf width => (first, width) ∈ Sizing.text.words
  | .binaryOf width => (first, width) ∈ Sizing.binary.words
  | .list n => Sizing.list.Spells n [first]
  | .listOf width => (first, width) ∈ Sizing.list.words
  | .map n => Sizing.map.Spells n [first]
  | .mapOf width => (first, width) ∈ Sizing.map.words
  | .unknown => True

/-- Every first byte is in the tables what the reader takes it for. -/
theorem Form.shown_ofByte (first : UInt8) : (Form.ofByte first).Shown first := by
  have back : UInt8.ofNat first.toNat = first := UInt8.ofNat_toNat
  have byte : first.toNat < 256 := first.toNat_lt
  rw [Form.ofByte]
  split_ifs with positive map list text negative
  · intro depth
    have spelled := SpellsInt.positive positive
    rw [back] at spelled
    refine .integer spelled ?_
    rw [ofInt?_natural (by omega), Data.ofUInt64_of_lt (by omega)]
  · exact Sizing.spells_byte (s := .map) (Nat.le_of_not_lt positive) (by simp only [Sizing.map]; omega)
  · exact Sizing.spells_byte (s := .list) (Nat.le_of_not_lt map) (by simp only [Sizing.list]; omega)
  · exact Sizing.spells_byte (s := .text) (Nat.le_of_not_lt list) (by simp only [Sizing.text]; omega)
  · intro depth
    have spelled := SpellsInt.negative (i := (first.toNat : Int) - 0x100) (by omega) (by omega)
    have same : (((first.toNat : Int) - 0x100) + 2 ^ 8).toNat = first.toNat := by omega
    rw [same, back] at spelled
    refine .integer spelled ?_
    rw [Data.ofInt?, if_pos (by omega)]
  · split
    case h_1 same =>
      rw [← back, same]
      exact fun depth ↦ .null
    case h_2 same =>
      rw [← back, same]
      exact fun depth ↦ .no
    case h_3 same =>
      rw [← back, same]
      exact fun depth ↦ .yes
    case h_24 => trivial
    -- the rest are the rows of the tables
    all_goals
      next same =>
      rw [← back, same]
      simp [Shown, unsignedWords, signedWords, Sizing.text, Sizing.binary, Sizing.list, Sizing.map]

/-- A spelling of a size announces it, if the reader takes the bytes of the table for the right forms. -/
theorem Sizing.Spells.announces {s : Sizing} {inByte inWord : Nat → Form} {n : Nat} {header : Bytes}
    (size : s.Spells n header)
    (byte : ∀ n, n < s.bound → Form.ofByte (UInt8.ofNat (s.base + n)) = inByte n)
    (word : ∀ w ∈ s.words, Form.ofByte w.1 = inWord w.2) : Announces inByte inWord n header := by
  cases size with
  | inByte small => exact .inByte (byte n small)
  | inWord form room => exact .inWord (word _ form) room

/-! ## The rows of the tables -/

section Rows

variable {n : Nat} {header : Bytes}

theorem ofByte_unsigned : ∀ w ∈ unsignedWords, Form.ofByte w.1 = .unsigned w.2 := by
  intro w form
  fin_cases form <;> rfl

theorem ofByte_signed : ∀ w ∈ signedWords, Form.ofByte w.1 = .signed w.2 := by
  intro w form
  fin_cases form <;> rfl

theorem ofByte_binary : ∀ w ∈ Sizing.binary.words, Form.ofByte w.1 = .binaryOf w.2 := by
  intro w form
  fin_cases form <;> rfl

theorem Sizing.Spells.announces_text (size : Sizing.text.Spells n header) :
    Announces .text .textOf n header := by
  refine size.announces (fun _ ↦ ofByte_text) fun w form ↦ ?_
  fin_cases form <;> rfl

theorem Sizing.Spells.announces_list (size : Sizing.list.Spells n header) :
    Announces .list .listOf n header := by
  refine size.announces (fun _ ↦ ofByte_list) fun w form ↦ ?_
  fin_cases form <;> rfl

theorem Sizing.Spells.announces_map (size : Sizing.map.Spells n header) :
    Announces .map .mapOf n header := by
  refine size.announces (fun _ ↦ ofByte_map) fun w form ↦ ?_
  fin_cases form <;> rfl

end Rows

/-! ## Texts -/

section Texts

variable {s : String} {bytes rest : Bytes}

theorem textOf_eq_some_iff {length : Nat} :
    textOf length bytes = some (s, rest) ↔
      (Text.encode s).length = length ∧ bytes = Text.encode s ++ rest := by
  constructor
  · intro read
    obtain ⟨⟨head, behind⟩, taken, read⟩ := Option.bind_eq_some_iff.mp read
    obtain ⟨t, decoded, same⟩ := Option.bind_eq_some_iff.mp read
    cases same
    obtain ⟨whole, shape⟩ := Word.take?_eq_some_iff.mp taken
    rw [Text.encode_of_decode? decoded]
    exact ⟨whole, shape⟩
  · rintro ⟨rfl, rfl⟩
    exact textOf_encode s rest

theorem sizedText_eq_some_iff {width : Nat} :
    sizedText width bytes = some (s, rest) ↔ (Text.encode s).length < 256 ^ width ∧
      bytes = Word.bytes width (Text.encode s).length ++ (Text.encode s ++ rest) := by
  constructor
  · intro read
    obtain ⟨⟨length, behind⟩, word, read⟩ := Option.bind_eq_some_iff.mp read
    obtain ⟨rfl, rfl⟩ := textOf_eq_some_iff.mp read
    exact Word.read?_eq_some_iff.mp word
  · rintro ⟨room, rfl⟩
    exact sizedText_encode s rest room

/-- A size in the first byte and a text of that size are the start of the bytes. -/
theorem exists_of_textOf {sizes : Sizing} {first : UInt8} {n : Nat} (size : sizes.Spells n [first])
    (read : textOf n bytes = some (s, rest)) :
    ∃ header, sizes.Spells (Text.encode s).length header ∧
      first :: bytes = (header ++ Text.encode s) ++ rest := by
  obtain ⟨rfl, rfl⟩ := textOf_eq_some_iff.mp read
  exact ⟨[first], size, rfl⟩

/-- A first byte, a size in a word and a text of that size are the start of the bytes. -/
theorem exists_of_sizedText {sizes : Sizing} {first : UInt8} {width : Nat}
    (form : (first, width) ∈ sizes.words) (read : sizedText width bytes = some (s, rest)) :
    ∃ header, sizes.Spells (Text.encode s).length header ∧
      first :: bytes = (header ++ Text.encode s) ++ rest := by
  obtain ⟨room, rfl⟩ := sizedText_eq_some_iff.mp read
  exact ⟨_, .inWord form room, by simp⟩

end Texts

/-! ## What is read is spelled -/

/-- What is read as a key is a spelling of it. -/
theorem exists_of_key {bytes rest : Bytes} {k : String} (read : key bytes = some (k, rest)) :
    ∃ head, SpellsKey k head ∧ bytes = head ++ rest := by
  cases bytes with
  | nil => cases read
  | cons first bytes =>
    have shown := Form.shown_ofByte first
    rw [key] at read
    generalize Form.ofByte first = form at shown read
    cases form with
    | text n =>
      obtain ⟨header, size, shape⟩ := exists_of_textOf shown read
      exact ⟨_, .text size, shape⟩
    | textOf width =>
      obtain ⟨header, size, shape⟩ := exists_of_sizedText shown read
      exact ⟨_, .text size, shape⟩
    | binaryOf width =>
      obtain ⟨header, size, shape⟩ := exists_of_sizedText shown read
      exact ⟨_, .binary size, shape⟩
    | _ => cases read

/-- What is read as a number in a word is in the first bytes. -/
theorem exists_of_word (number : Nat → Data) {width : Nat} {bytes rest : Bytes} {d : Data}
    (read : (Word.read? width bytes).map (fun (n, rest) ↦ (number n, rest)) = some (d, rest)) :
    ∃ n < 256 ^ width, d = number n ∧ bytes = Word.bytes width n ++ rest := by
  obtain ⟨⟨n, behind⟩, word, same⟩ := Option.map_eq_some_iff.mp read
  cases same
  obtain ⟨room, shape⟩ := Word.read?_eq_some_iff.mp word
  exact ⟨n, room, rfl, shape⟩

mutual

/-- What is read as a value is a spelling of it. -/
theorem exists_of_value {fuel depth : Nat} {bytes rest : Bytes} {d : Data}
    (read : value fuel depth bytes = some (d, rest)) :
    ∃ head, Spells depth d head ∧ bytes = head ++ rest := by
  match fuel, bytes with
  | 0, _ => simp [value] at read
  | fuel + 1, [] => simp [value] at read
  | fuel + 1, first :: bytes =>
    have shown := Form.shown_ofByte first
    rw [value] at read
    generalize Form.ofByte first = form at shown read
    cases form with
    | complete e =>
      cases read
      exact ⟨[first], shown depth, rfl⟩
    | unsigned width =>
      obtain ⟨n, room, rfl, rfl⟩ := exists_of_word (fun n ↦ .ofUInt64 (UInt64.ofNat n)) read
      exact ⟨_, .integer (.unsigned shown room) (ofInt?_natural (unsigned_room shown room)), rfl⟩
    | signed width =>
      obtain ⟨n, room, rfl, rfl⟩ := exists_of_word (fun n ↦ .int (Int64.ofInt (signed width n))) read
      obtain ⟨low, high, back⟩ := signed_range shown room
      have spelled := SpellsInt.signed shown low high
      rw [back] at spelled
      exact ⟨_, .integer spelled (ofInt?_signed shown low high), rfl⟩
    | single =>
      obtain rfl : first = 0xCA := shown
      obtain ⟨n, room, rfl, rfl⟩ :=
        exists_of_word (fun n ↦ .float (Binary64.ofSingle (UInt32.ofNat n))) read
      have spelled : Spells depth _ _ := .single (UInt32.ofNat n)
      rw [UInt32.toNat_ofNat_of_lt' room] at spelled
      exact ⟨_, spelled, rfl⟩
    | double =>
      obtain rfl : first = 0xCB := shown
      obtain ⟨n, room, rfl, rfl⟩ := exists_of_word (fun n ↦ .float ⟨UInt64.ofNat n⟩) read
      have spelled : Spells depth _ _ := .double ⟨UInt64.ofNat n⟩
      rw [UInt64.toNat_ofNat_of_lt' room] at spelled
      exact ⟨_, spelled, rfl⟩
    | text n =>
      obtain ⟨⟨s, behind⟩, text, same⟩ := Option.map_eq_some_iff.mp read
      cases same
      obtain ⟨header, size, shape⟩ := exists_of_textOf shown text
      exact ⟨_, .text size, shape⟩
    | textOf width =>
      obtain ⟨⟨s, behind⟩, text, same⟩ := Option.map_eq_some_iff.mp read
      cases same
      obtain ⟨header, size, shape⟩ := exists_of_sizedText shown text
      exact ⟨_, .text size, shape⟩
    | list n => exact exists_of_list shown read
    | listOf width =>
      obtain ⟨⟨n, behind⟩, word, contents⟩ := Option.bind_eq_some_iff.mp read
      obtain ⟨room, rfl⟩ := Word.read?_eq_some_iff.mp word
      exact exists_of_list (.inWord shown room) contents
    | map n => exact exists_of_map shown read
    | mapOf width =>
      obtain ⟨⟨n, behind⟩, word, contents⟩ := Option.bind_eq_some_iff.mp read
      obtain ⟨room, rfl⟩ := Word.read?_eq_some_iff.mp word
      exact exists_of_map (.inWord shown room) contents
    | binaryOf width => cases read
    | unknown => cases read

theorem exists_of_list {fuel depth n : Nat} {header bytes rest : Bytes} {d : Data}
    (size : Sizing.list.Spells n header) (read : list fuel depth n bytes = some (d, rest)) :
    ∃ head, Spells depth d head ∧ header ++ bytes = head ++ rest := by
  match fuel, depth with
  | 0, _ => simp [list] at read
  | fuel + 1, 0 => simp [list] at read
  | fuel + 1, depth + 1 =>
    rw [list] at read
    obtain ⟨⟨ds, behind⟩, all, same⟩ := Option.map_eq_some_iff.mp read
    cases same
    obtain ⟨body, items, rfl, rfl⟩ := exists_of_items all
    exact ⟨header ++ body, .list size items, (List.append_assoc ..).symm⟩

theorem exists_of_map {fuel depth n : Nat} {header bytes rest : Bytes} {d : Data}
    (size : Sizing.map.Spells n header) (read : map fuel depth n bytes = some (d, rest)) :
    ∃ head, Spells depth d head ∧ header ++ bytes = head ++ rest := by
  match fuel, depth with
  | 0, _ => simp [map] at read
  | fuel + 1, 0 => simp [map] at read
  | fuel + 1, depth + 1 =>
    rw [map] at read
    obtain ⟨⟨es, behind⟩, all, same⟩ := Option.map_eq_some_iff.mp read
    cases same
    obtain ⟨sent, body, entries, rfl, rfl, rfl⟩ := exists_of_entries all
    exact ⟨header ++ body, .map size entries, (List.append_assoc ..).symm⟩

/-- What are read as items are spellings of them, one after the other. -/
theorem exists_of_items {fuel depth n : Nat} {bytes rest : Bytes} {ds : List Data}
    (read : items fuel depth n bytes = some (ds, rest)) :
    ∃ body, SpellsItems depth ds body ∧ ds.length = n ∧ bytes = body ++ rest := by
  match fuel, n with
  | 0, _ => simp [items] at read
  | fuel + 1, 0 =>
    obtain ⟨rfl, rfl⟩ : ds = [] ∧ bytes = rest := by simpa [items, eq_comm] using read
    exact ⟨[], .nil, rfl, rfl⟩
  | fuel + 1, n + 1 =>
    rw [items] at read
    obtain ⟨⟨d, middle⟩, first, read⟩ := Option.bind_eq_some_iff.mp read
    obtain ⟨⟨others, behind⟩, later, same⟩ := Option.bind_eq_some_iff.mp read
    cases same
    obtain ⟨head, spelled, rfl⟩ := exists_of_value first
    obtain ⟨tail, spelledLater, rfl, rfl⟩ := exists_of_items later
    exact ⟨head ++ tail, .cons spelled spelledLater, rfl, (List.append_assoc ..).symm⟩

/-- What are read as entries are spellings of entries, which are put among those read before. -/
theorem exists_of_entries {fuel depth n : Nat} {bytes rest : Bytes} {before es : Entries Data}
    (read : entries fuel depth n bytes before = some (es, rest)) :
    ∃ sent body, SpellsEntries depth sent body ∧ sent.length = n ∧
      es = sent.foldl (fun acc e ↦ Entries.insert e.1 e.2 acc) before ∧ bytes = body ++ rest := by
  match fuel, n with
  | 0, _ => simp [entries] at read
  | fuel + 1, 0 =>
    obtain ⟨rfl, rfl⟩ : es = before ∧ bytes = rest := by simpa [entries, eq_comm] using read
    exact ⟨[], [], .nil, rfl, rfl, rfl⟩
  | fuel + 1, n + 1 =>
    rw [entries] at read
    obtain ⟨⟨k, middle⟩, named, read⟩ := Option.bind_eq_some_iff.mp read
    obtain ⟨⟨d, behind⟩, first, later⟩ := Option.bind_eq_some_iff.mp read
    obtain ⟨key, spelledKey, rfl⟩ := exists_of_key named
    obtain ⟨head, spelled, rfl⟩ := exists_of_value first
    obtain ⟨sent, tail, spelledLater, rfl, rfl, rfl⟩ := exists_of_entries later
    exact ⟨(k, d) :: sent, key ++ (head ++ tail), .cons spelledKey spelled spelledLater, rfl, rfl,
      by simp only [List.append_assoc]⟩

end

/-! ## What is spelled is read -/

/-- A spelling of a key is read as the key. -/
theorem key_of_spelled {k : String} {head : Bytes} (spelled : SpellsKey k head) (rest : Bytes) :
    key (head ++ rest) = some (k, rest) := by
  cases spelled with
  | text size =>
    rw [List.append_assoc]
    exact key_text rest size.announces_text
  | binary size =>
    cases size with
    | inByte small => exact absurd small (Nat.not_lt_zero _)
    | inWord form room =>
      rw [List.append_assoc, List.cons_append, key, ofByte_binary _ form]
      exact sizedText_encode k rest room

/-- A spelling of an integer is read as the integer in its preferred form. -/
theorem value_of_spelledInt {i : Int} {head : Bytes} (spelled : SpellsInt i head) {d : Data}
    (held : Data.ofInt? i = some d) (fuel depth : Nat) (rest : Bytes) :
    value (fuel + 1) depth (head ++ rest) = some (d, rest) := by
  cases spelled with
  | positive small =>
    rw [ofInt?_natural (by omega), Data.ofUInt64_of_lt (by omega)] at held
    cases held
    exact value_complete rest fuel depth (ofByte_complete small)
  | negative low negative =>
    rw [Data.ofInt?, if_pos (by omega)] at held
    cases held
    exact value_complete rest fuel depth (ofByte_negative low negative)
  | unsigned form room =>
    rw [ofInt?_natural (unsigned_room form room)] at held
    cases held
    exact value_unsigned rest fuel depth (ofByte_unsigned _ form) room
  | signed form low high =>
    rw [ofInt?_signed form low high] at held
    cases held
    obtain ⟨room, back⟩ := signed_complement form low high
    exact value_signed rest fuel depth (ofByte_signed _ form) room back

theorem value_single (rest : Bytes) (fuel depth : Nat) (word : UInt32) :
    value (fuel + 1) depth (0xCA :: Word.bytes 4 word.toNat ++ rest) =
      some (.float (Binary64.ofSingle word), rest) := by
  have form : Form.ofByte 0xCA = .single := rfl
  have room : word.toNat < 256 ^ 4 := word.toNat_lt
  simp [value, form, Word.read?_bytes_append room]

mutual

/-- A spelling of a tree is read as the tree from the start of any bytes.  Four steps a byte are enough. -/
theorem value_of_spelled {depth : Nat} {d : Data} {head : Bytes} (spelled : Spells depth d head)
    {fuel : Nat} (enough : 4 * head.length ≤ fuel) (rest : Bytes) :
    value fuel depth (head ++ rest) = some (d, rest) := by
  obtain ⟨fuel, rfl⟩ : ∃ more, fuel = more + 4 := by
    have some := List.length_pos_iff.mpr spelled.ne_nil
    exact ⟨fuel - 4, by omega⟩
  match spelled with
  | .null => exact value_complete rest _ depth rfl
  | .no => exact value_complete rest _ depth rfl
  | .yes => exact value_complete rest _ depth rfl
  | .integer spelled held => exact value_of_spelledInt spelled held _ depth rest
  | .single word => exact value_single rest _ depth word
  | .double x => exact value_double rest _ depth x
  | .text size =>
    rw [List.append_assoc]
    exact value_text rest size.announces_text _ depth
  | .list size items =>
    rw [List.length_append] at enough
    have some := List.length_pos_iff.mpr size.ne_nil
    rw [List.append_assoc, value_list _ _ _ size.announces_list, list,
      items_of_spelled items (by omega) rest]
    rfl
  | .map size entries =>
    rw [List.length_append] at enough
    have some := List.length_pos_iff.mpr size.ne_nil
    rw [List.append_assoc, value_map _ _ _ size.announces_map, map,
      entries_of_spelled entries (by omega) [] rest]
    rfl

theorem items_of_spelled {depth : Nat} {ds : List Data} {body : Bytes} (spelled : SpellsItems depth ds body)
    {fuel : Nat} (enough : 4 * body.length < fuel) (rest : Bytes) :
    items fuel depth ds.length (body ++ rest) = some (ds, rest) := by
  obtain ⟨fuel, rfl⟩ : ∃ more, fuel = more + 1 := ⟨fuel - 1, by omega⟩
  match spelled with
  | .nil => simp [items]
  | .cons first others =>
    have some := List.length_pos_iff.mpr first.ne_nil
    rw [List.length_append] at enough
    rw [List.append_assoc, List.length_cons, items, value_of_spelled first (by omega)]
    simp only [Option.bind_eq_bind, Option.bind_some]
    rw [items_of_spelled others (by omega) rest]
    rfl

theorem entries_of_spelled {depth : Nat} {sent : List (String × Data)} {body : Bytes}
    (spelled : SpellsEntries depth sent body) {fuel : Nat} (enough : 4 * body.length < fuel)
    (before : Entries Data) (rest : Bytes) :
    entries fuel depth sent.length (body ++ rest) before =
      some (sent.foldl (fun acc e ↦ Entries.insert e.1 e.2 acc) before, rest) := by
  obtain ⟨fuel, rfl⟩ : ∃ more, fuel = more + 1 := ⟨fuel - 1, by omega⟩
  match spelled with
  | .nil => simp [entries]
  | .cons named first others =>
    have some := List.length_pos_iff.mpr first.ne_nil
    rw [List.length_append, List.length_append] at enough
    rw [List.append_assoc, List.append_assoc, List.length_cons, entries, key_of_spelled named]
    simp only [Option.bind_eq_bind, Option.bind_some]
    rw [value_of_spelled first (by omega), Option.bind_some,
      entries_of_spelled others (by omega) _ rest, List.foldl_cons]

end

/-! ## Documents -/

theorem readFirst?_eq_some_iff {bytes rest : Bytes} {d : Data} :
    readFirst? bytes = some (d, rest) ↔ ∃ head, Spells maxDepth d head ∧ bytes = head ++ rest := by
  constructor
  · exact exists_of_value
  · rintro ⟨head, spelled, rfl⟩
    refine value_of_spelled spelled ?_ rest
    rw [List.length_append]
    omega

/-- Bytes are a document of a tree when they start with a spelling of it. -/
theorem decode_eq_ok_iff [Wording] {bytes : Bytes} {d : Data} :
    Format.msgpack.decode bytes = .ok d ↔
      ∃ head rest, Spells maxDepth d head ∧ bytes = head ++ rest := by
  have whole : Format.msgpack.decode bytes = .ok d ↔ ∃ rest, readFirst? bytes = some (d, rest) := by
    rw [Format.decode_eq_ok_iff, Format.read?, read?]
    cases readFirst? bytes <;> simp [Prod.ext_iff]
  rw [whole, exists_comm]
  exact exists_congr fun rest ↦ readFirst?_eq_some_iff

/-- No spelling is the start of another one, of whatever tree. -/
theorem Spells.unique {depth deep : Nat} {d e : Data} {head other rest behind : Bytes}
    (spelled : Spells depth d head) (again : Spells deep e other)
    (same : head ++ rest = other ++ behind) : d = e ∧ head = other := by
  -- One reader that goes deep enough for both reads both, and it reads one tree.
  have read := value_of_spelled (spelled.mono (Nat.le_max_left depth deep))
    (Nat.le_add_right _ (4 * other.length)) rest
  have readAgain := value_of_spelled (again.mono (Nat.le_max_right depth deep))
    (Nat.le_add_left _ (4 * head.length)) behind
  rw [same, readAgain] at read
  obtain ⟨rfl, rfl⟩ : e = d ∧ behind = rest := by simpa using read
  exact ⟨rfl, List.append_cancel_right same⟩

end Troupe.MessagePack
