import Troupe.Proofs.Entries
import Troupe.Proofs.MessagePack.Reading
import Troupe.Proofs.MessagePack.RoundTrip

/-!
# Canonical trees

The trees that have spellings are the canonical ones: every integer is in its preferred form, the entries
of every map are in key order, every size fits a header and the tree is not too deep (`Spells.canonical`).
What is written of such a tree is one of its spellings, so whatever was read can be written, and is read
again as it was.

No spelling is the start of another one, so what is left of a document that was cut is no document
(`Spells.decode_take_ne`).
-/

namespace Troupe

namespace Data

/-- An integer is unsigned only if it fits no signed word. -/
def Preferred : Data → Prop
  | .uint u => 2 ^ 63 ≤ u.toNat
  | _ => True

instance : DecidablePred Preferred
  | .uint u => inferInstanceAs (Decidable (2 ^ 63 ≤ u.toNat))
  | .null | .bool _ | .int _ | .float _ | .string _ | .list _ | .map _ => inferInstanceAs (Decidable True)

mutual

/-- A tree with every integer in its preferred form stays as it is. -/
theorem normalize_of_preferred : (d : Data) → d.Everywhere Preferred → d.normalize = d
  | .null, _ | .bool _, _ | .int _, _ | .float _, _ | .string _, _ => by simp only [normalize]
  | .uint u, large => by
    have wide : ¬ u.toNat < 0x8000000000000000 := Nat.not_lt.mpr large
    rw [normalize, ofUInt64, if_neg wide]
  | .list ds, preferred => by
    rw [normalize, normalizeItems_of_preferred ds preferred.2]
  | .map es, preferred => by
    rw [normalize, normalizeEntries_of_preferred es preferred.2]

theorem normalizeItems_of_preferred :
    (ds : List Data) → EverywhereItems Preferred ds → normalizeItems ds = ds
  | [], _ => rfl
  | d :: ds, preferred => by
    rw [normalizeItems, normalize_of_preferred d preferred.1, normalizeItems_of_preferred ds preferred.2]

theorem normalizeEntries_of_preferred :
    (es : List (String × Data)) → EverywhereEntries Preferred es → normalizeEntries es = es
  | [], _ => rfl
  | (k, d) :: es, preferred => by
    rw [normalizeEntries, normalize_of_preferred d preferred.1,
      normalizeEntries_of_preferred es preferred.2]

end

end Data

namespace MessagePack

/-! ## Trees that have spellings -/

/-- A tree can be held and written as it is, with at most `depth` containers around one another. -/
structure Canonical (depth : Nat) (d : Data) : Prop where
  /-- every integer is in its preferred form -/
  preferred : d.Everywhere Data.Preferred
  /-- the entries of every map are in key order -/
  ordered : d.Ordered
  /-- every size fits a header -/
  short : Short d
  /-- no more containers are around one another -/
  shallow : d.depth ≤ depth

section Containers

variable {depth : Nat}

theorem Canonical.list {ds : List Data} (room : ds.length < 2 ^ 32)
    (each : ∀ d ∈ ds, Canonical depth d) : Canonical (depth + 1) (.list ds) where
  preferred := ⟨trivial, Data.everywhereItems_iff.mpr fun d mem ↦ (each d mem).preferred⟩
  ordered := ⟨trivial, Data.everywhereItems_iff.mpr fun d mem ↦ (each d mem).ordered⟩
  short := ⟨room, Data.everywhereItems_iff.mpr fun d mem ↦ (each d mem).short⟩
  shallow := by
    rw [Data.depth, Nat.add_comm]
    exact Nat.succ_le_succ (Data.depthItems_le fun d mem ↦ (each d mem).shallow)

theorem Canonical.map {es : Entries Data} (sorted : es.Sorted) (room : es.length < 2 ^ 32)
    (keys : ∀ e ∈ es, (Text.encode e.1).length < 2 ^ 32) (each : ∀ e ∈ es, Canonical depth e.2) :
    Canonical (depth + 1) (.map es) where
  preferred := ⟨trivial, Data.everywhereEntries_iff.mpr fun e mem ↦ (each e mem).preferred⟩
  ordered := ⟨sorted, Data.everywhereEntries_iff.mpr fun e mem ↦ (each e mem).ordered⟩
  short := ⟨⟨room, keys⟩, Data.everywhereEntries_iff.mpr fun e mem ↦ (each e mem).short⟩
  shallow := by
    rw [Data.depth, Nat.add_comm]
    exact Nat.succ_le_succ (Data.depthEntries_le fun e mem ↦ (each e mem).shallow)

end Containers

/-- An integer is held in its preferred form. -/
theorem canonical_of_ofInt? {depth : Nat} {i : Int} {d : Data} (held : Data.ofInt? i = some d) :
    Canonical depth d := by
  rw [Data.ofInt?] at held
  split_ifs at held with signed unsigned
  · cases held
    exact ⟨trivial, trivial, trivial, Nat.zero_le _⟩
  · cases held
    obtain ⟨n, rfl⟩ := Int.eq_ofNat_of_zero_le unsigned.1
    have number : (UInt64.ofNat n).toNat = n := UInt64.toNat_ofNat_of_lt' (by simpa using unsigned.2)
    refine ⟨?_, trivial, trivial, Nat.zero_le _⟩
    show 2 ^ 63 ≤ (UInt64.ofNat n).toNat
    rw [number]
    omega

/-- A size that can be spelled is less than a bound, if the byte and all words are. -/
theorem Sizing.Spells.lt {s : Sizing} {n limit : Nat} {header : Bytes} (size : s.Spells n header)
    (byte : s.bound ≤ limit) (words : ∀ w ∈ s.words, 256 ^ w.2 ≤ limit) : n < limit := by
  cases size with
  | inByte small => exact small.trans_le byte
  | inWord form room => exact room.trans_le (words _ form)

theorem SpellsKey.room {k : String} {bytes : Bytes} (spelled : SpellsKey k bytes) :
    (Text.encode k).length < 2 ^ 32 := by
  cases spelled with
  | text size | binary size => exact size.lt (by decide) (by decide)

mutual

/-- Only canonical trees have spellings. -/
theorem Spells.canonical {depth : Nat} {d : Data} {bytes : Bytes} :
    Spells depth d bytes → Canonical depth d
  | .null | .no | .yes | .single _ | .double _ => ⟨trivial, trivial, trivial, Nat.zero_le _⟩
  | .integer _ held => canonical_of_ofInt? held
  | .text size => ⟨trivial, trivial, size.lt (by decide) (by decide), Nat.zero_le _⟩
  | .list size items => .list (size.lt (by decide) (by decide)) items.canonical
  | .map size entries => by
    have room : _ < 2 ^ 32 := size.lt (by decide) (by decide)
    refine .map (Entries.sorted_ofList _) ((Entries.length_ofList_le _).trans_lt room) ?_ ?_
    · exact fun e mem ↦ (entries.canonical e (Entries.mem_of_mem_ofList mem)).1
    · exact fun e mem ↦ (entries.canonical e (Entries.mem_of_mem_ofList mem)).2

theorem SpellsItems.canonical {depth : Nat} {ds : List Data} {bytes : Bytes} :
    SpellsItems depth ds bytes → ∀ d ∈ ds, Canonical depth d
  | .nil => List.forall_mem_nil _
  | .cons first others => List.forall_mem_cons.mpr ⟨first.canonical, others.canonical⟩

theorem SpellsEntries.canonical {depth : Nat} {es : List (String × Data)} {bytes : Bytes} :
    SpellsEntries depth es bytes →
      ∀ e ∈ es, (Text.encode e.1).length < 2 ^ 32 ∧ Canonical depth e.2
  | .nil => List.forall_mem_nil _
  | .cons named first others =>
    List.forall_mem_cons.mpr ⟨⟨named.room, first.canonical⟩, others.canonical⟩

end

/-! ## Documents that were cut -/

/-- What is written of a tree is a spelling of it, every integer in its preferred form. -/
theorem spells_write {d : Data} (ordered : d.Ordered) (short : Short d) :
    Spells d.depth d.normalize (write d) := by
  have read := value_write d ordered short (Nat.le_refl _) (Nat.le_refl _) []
  obtain ⟨head, spelled, same⟩ := exists_of_value read
  rw [List.append_nil, List.append_nil] at same
  rwa [same]

section Decoding

variable [Wording]

/-- No proper beginning of a spelling is a document. -/
theorem Spells.decode_take_ne {depth k : Nat} {d : Data} {head : Bytes} (spelled : Spells depth d head)
    (cut : k < head.length) (e : Data) : Format.msgpack.decode (head.take k) ≠ .ok e := by
  intro accepted
  obtain ⟨start, rest, again, shape⟩ := decode_eq_ok_iff.mp accepted
  -- What was read is a spelling as well, and it is at the start of the whole one.
  have same : head ++ [] = start ++ (rest ++ head.drop k) := by
    rw [← List.append_assoc, ← shape, List.take_append_drop, List.append_nil]
  obtain ⟨-, rfl⟩ := spelled.unique again same
  have length := congrArg List.length shape
  rw [List.length_take, List.length_append] at length
  omega

/-- Bytes that are no document are malformed. -/
theorem decode_eq_malformed {bytes : Bytes} (refused : ∀ e, Format.msgpack.decode bytes ≠ .ok e) :
    Format.msgpack.decode bytes = .error (Format.msgpack.malformed bytes) := by
  cases decoded : Format.msgpack.decode bytes with
  | ok e => exact absurd decoded (refused e)
  | error e => rw [(Format.decode_eq_error_iff.mp decoded).2]

/-- The document of a tree whose sizes all have headers is refused if it is cut anywhere, however deep the
tree is.  If it is not cut and not too deep, it is read. -/
theorem decode_take_encode {d : Data} (ordered : d.Ordered) (short : Short d) (k : Nat) :
    (k < (Format.msgpack.encode d).length →
      Format.msgpack.decode ((Format.msgpack.encode d).take k) =
        .error (Format.msgpack.malformed ((Format.msgpack.encode d).take k))) ∧
    ((Format.msgpack.encode d).length ≤ k → d.depth ≤ maxDepth →
      Format.msgpack.decode ((Format.msgpack.encode d).take k) = .ok d.normalize) := by
  have spelled := spells_write ordered short
  constructor
  · exact fun cut ↦ decode_eq_malformed (spelled.decode_take_ne cut)
  · intro whole shallow
    rw [List.take_of_length_le whole]
    exact decode_eq_ok_iff.mpr ⟨write d, [], spelled.mono shallow, (List.append_nil _).symm⟩

end Decoding

section

attribute [local instance] Wording.brief

/-- The cut is inside the key of an entry. -/
theorem decode_take_encode_sample :
    sample.Ordered ∧ Short sample ∧ 10 < (Format.msgpack.encode sample).length ∧
      Format.msgpack.decode ((Format.msgpack.encode sample).take 10) =
        .error (.decode "msgpack" "malformed document") := by
  have ordered : sample.Ordered := by decide
  have short : Short sample := by decide
  have cut : 10 < (Format.msgpack.encode sample).length := by decide +kernel
  exact ⟨ordered, short, cut, (decode_take_encode ordered short 10).1 cut⟩

end

/-! ## Whatever is accepted -/

theorem exists_ofInt?_of_spelled {i : Int} {head : Bytes} (spelled : SpellsInt i head) :
    ∃ d, Data.ofInt? i = some d := by
  cases spelled with
  | positive small => exact ⟨_, ofInt?_natural (by omega)⟩
  | negative low negative => exact ⟨_, by rw [Data.ofInt?, if_pos (by omega)]⟩
  | unsigned form room => exact ⟨_, ofInt?_natural (unsigned_room form room)⟩
  | signed form low high => exact ⟨_, ofInt?_signed form low high⟩

/-- Whatever bytes are accepted, they start with a spelling of a canonical tree, which is written and read
again as it is.  Every spelling of the tree is read as the tree: an integer in the preferred form of its
number, whatever its word; a text behind any of its headers; and a map whose keys are distinct from its
entries in any order. -/
theorem decode_canonical [Wording] :
    (∀ bytes d, Format.msgpack.decode bytes = .ok d →
      d.Everywhere Data.Preferred ∧ d.Ordered ∧ Short d ∧
        Format.msgpack.decode (Format.msgpack.encode d) = .ok d) ∧
    (∀ bytes d, Format.msgpack.decode bytes = .ok d ↔
      ∃ head rest, Spells maxDepth d head ∧ bytes = head ++ rest) ∧
    (∀ i head rest, SpellsInt i head →
      ∃ d, Data.ofInt? i = some d ∧ Format.msgpack.decode (head ++ rest) = .ok d) ∧
    (∀ s header rest, Sizing.text.Spells (Text.encode s).length header →
      Format.msgpack.decode (header ++ Text.encode s ++ rest) = .ok (.string s)) ∧
    (∀ (sent other : List (String × Data)) header body rest, other.Perm sent →
      (sent.map Prod.fst).Nodup → Sizing.map.Spells other.length header →
      (∃ depth < maxDepth, SpellsEntries depth other body) →
      Format.msgpack.decode (header ++ body ++ rest) = .ok (.map (Entries.ofList sent))) := by
  have decoded {d : Data} {head : Bytes} (rest : Bytes) (spelled : Spells maxDepth d head) :
      Format.msgpack.decode (head ++ rest) = .ok d :=
    decode_eq_ok_iff.mpr ⟨head, rest, spelled, rfl⟩
  refine ⟨?_, fun bytes d ↦ decode_eq_ok_iff, ?_, ?_, ?_⟩
  · intro bytes d accepted
    obtain ⟨head, rest, spelled, -⟩ := decode_eq_ok_iff.mp accepted
    obtain ⟨preferred, ordered, short, shallow⟩ := spelled.canonical
    have written := spells_write ordered short
    rw [Data.normalize_of_preferred d preferred] at written
    have again := decoded [] (written.mono shallow)
    rw [List.append_nil] at again
    exact ⟨preferred, ordered, short, again⟩
  · intro i head rest spelled
    obtain ⟨d, held⟩ := exists_ofInt?_of_spelled spelled
    exact ⟨d, held, decoded rest (.integer spelled held)⟩
  · intro s header rest size
    exact decoded rest (.text size)
  · rintro sent other header body rest perm distinct size ⟨depth, shallow, entries⟩
    rw [← Entries.ofList_perm perm ((perm.map Prod.fst).nodup_iff.mpr distinct)]
    exact decoded rest (Spells.mono shallow (.map size entries))

/-- A document that no writer here writes: wide words and headers, and a key that comes twice, once as a
binary string, with another byte behind it. -/
def redundant : Bytes :=
  [0xDE, 0x00, 0x02,
    0xC4, 0x01, 0x62, 0xD1, 0x00, 0x07,
    0xD9, 0x01, 0x62, 0xDC, 0x00, 0x03,
      0xCF, 0x80, 0x00, 0x00, 0x00, 0x00, 0x00, 0x00, 0x00,
      0xCA, 0x7F, 0x80, 0x00, 0x00,
      0xDB, 0x00, 0x00, 0x00, 0x02, 0xC3, 0xA9,
    0xC1]

/-- The tree of that document. -/
def concise : Data :=
  .map [("b", .list [.uint 0x8000000000000000, .float ⟨0x7FF0000000000000⟩, .string "é"])]

attribute [local instance] Wording.brief

/-- The redundant document is read and written without what is redundant; seven is read from eight bytes
with a sign, and a map from entries against their order. -/
theorem decode_canonical_redundant :
    Format.msgpack.decode redundant = .ok concise ∧ concise.Everywhere Data.Preferred ∧
      concise.Ordered ∧ Short concise ∧
      Format.msgpack.decode (Format.msgpack.encode concise) = .ok concise ∧
      (∃ d, Data.ofInt? 7 = some d ∧
        Format.msgpack.decode [0xD3, 0, 0, 0, 0, 0, 0, 0, 7, 0xC1] = .ok d) ∧
      Format.msgpack.decode [0x82, 0xA1, 0x79, 0x01, 0xA1, 0x78, 0xCC, 0x02] =
        .ok (.map (Entries.ofList [("x", .int 2), ("y", .int 1)])) := by
  obtain ⟨canonical, -, integer, -, map⟩ := decode_canonical
  have accepted : Format.msgpack.decode redundant = .ok concise := by with_unfolding_all rfl
  obtain ⟨preferred, ordered, short, again⟩ := canonical redundant concise accepted
  have seven : SpellsInt 7 [0xD3, 0, 0, 0, 0, 0, 0, 0, 7] :=
    @SpellsInt.signed 0xD3 8 7 (by decide) (by decide) (by decide)
  have two : SpellsInt 2 [0xCC, 0x02] := @SpellsInt.unsigned 0xCC 1 2 (by decide) (by decide)
  have entries : SpellsEntries 0 [("y", .int 1), ("x", .int 2)]
      ([0xA1] ++ Text.encode "y" ++ ([0x01] ++ ([0xA1] ++ Text.encode "x" ++ ([0xCC, 0x02] ++ [])))) := by
    refine .cons (.text (.inByte (by decide))) (.integer (@SpellsInt.positive 1 (by decide)) rfl) ?_
    exact .cons (.text (.inByte (by decide))) (.integer two rfl) .nil
  rw [show Text.encode "y" = [0x79] from rfl, show Text.encode "x" = [0x78] from rfl] at entries
  refine ⟨accepted, preferred, ordered, short, again, integer 7 _ [0xC1] seven, ?_⟩
  exact map _ _ [0x82] _ [] (List.Perm.swap _ _ _) (by decide) (.inByte (by decide))
    ⟨0, by decide, entries⟩

end MessagePack

end Troupe
