import Troupe.Codec
import Troupe.Proofs.Codec
import Troupe.Proofs.MessagePack.Form

/-!
# MessagePack is read as it was written

A tree that is not too deep and whose texts, lists and maps have room in their headers is read back from
the start of any bytes, every integer in its preferred form.
-/

namespace Troupe.MessagePack

/-- The size of a text, a list or a map fits the largest header. -/
def HasRoom : Data → Prop
  | .string s => (Text.encode s).length < 2 ^ 32
  | .list items => items.length < 2 ^ 32
  | .map entries => entries.length < 2 ^ 32 ∧ ∀ e ∈ entries, (Text.encode e.1).length < 2 ^ 32
  | _ => True

instance : DecidablePred HasRoom
  | .string s => inferInstanceAs (Decidable ((Text.encode s).length < 2 ^ 32))
  | .list items => inferInstanceAs (Decidable (items.length < 2 ^ 32))
  | .map entries =>
    inferInstanceAs (Decidable
      (entries.length < 2 ^ 32 ∧ ∀ e ∈ entries, (Text.encode e.1).length < 2 ^ 32))
  | .null | .bool _ | .int _ | .uint _ | .float _ => inferInstanceAs (Decidable True)

/-- The sizes of all texts, lists and maps in a tree fit the largest header. -/
def Short (d : Data) : Prop := d.Everywhere HasRoom

instance : DecidablePred Short := fun d ↦ inferInstanceAs (Decidable (d.Everywhere HasRoom))

open Data (Everywhere EverywhereItems EverywhereEntries)

mutual

/-- A tree is read from the start of any bytes.  Four steps a byte are enough. -/
theorem value_write (d : Data) (ordered : d.Everywhere Data.Sorted) (short : d.Everywhere HasRoom)
    {fuel depth : Nat} (shallow : d.depth ≤ depth) (enough : 4 * (write d).length ≤ fuel) (rest : Bytes) :
    value fuel depth (write d ++ rest) = some (d.normalize, rest) := by
  obtain ⟨fuel, rfl⟩ : ∃ more, fuel = more + 4 := by
    have some := List.length_pos_iff.mpr (write_ne_nil d)
    exact ⟨fuel - 4, by omega⟩
  match d with
  | .null => exact value_complete rest _ depth rfl
  | .bool b => cases b <;> exact value_complete rest _ depth rfl
  | .int i => exact value_integer rest _ depth i
  | .uint u =>
    rw [write, value_natural rest _ depth u.toNat_lt, UInt64.ofNat_toNat, Data.normalize]
  | .float x => exact value_double rest _ depth x
  | .string s =>
    rw [write, text, List.append_assoc]
    exact value_text rest (announces_textHeader short) _ depth
  | .list ds =>
    rw [Data.depth] at shallow
    obtain ⟨depth, rfl⟩ : ∃ deeper, depth = deeper + 1 := ⟨depth - 1, by omega⟩
    have header := announces_listHeader short.1
    rw [write, List.length_append] at enough
    have some := List.length_pos_iff.mpr (listHeader_ne_nil ds.length)
    rw [write, List.append_assoc, value_list _ _ _ header, list,
      items_write ds ordered.2 short.2 (by omega) (by omega) rest, Data.normalize]
    rfl
  | .map es =>
    rw [Data.depth] at shallow
    obtain ⟨depth, rfl⟩ : ∃ deeper, depth = deeper + 1 := ⟨depth - 1, by omega⟩
    have header := announces_mapHeader short.1.1
    rw [write, List.length_append] at enough
    have some := List.length_pos_iff.mpr (mapHeader_ne_nil es.length)
    rw [write, List.append_assoc, value_map _ _ _ header, map,
      entries_write es ordered.1 ordered.2 short.1.2 short.2 (by omega) (by omega) (by simp) rest,
      Data.normalize]
    rfl

theorem items_write (ds : List Data) (ordered : EverywhereItems Data.Sorted ds)
    (short : EverywhereItems HasRoom ds) {fuel depth : Nat} (shallow : Data.depthItems ds ≤ depth)
    (enough : 4 * (writeItems ds).length < fuel) (rest : Bytes) :
    items fuel depth ds.length (writeItems ds ++ rest) = some (Data.normalizeItems ds, rest) := by
  obtain ⟨fuel, rfl⟩ : ∃ more, fuel = more + 1 := ⟨fuel - 1, by omega⟩
  match ds with
  | [] => simp [items, writeItems, Data.normalizeItems]
  | d :: ds =>
    have some := List.length_pos_iff.mpr (write_ne_nil d)
    rw [Data.depthItems] at shallow
    rw [writeItems, List.length_append] at enough
    rw [writeItems, List.append_assoc, List.length_cons, items,
      value_write d ordered.1 short.1 (by omega) (by omega)]
    simp only [Option.bind_eq_bind, Option.bind_some]
    rw [items_write ds ordered.2 short.2 (by omega) (by omega) rest]
    rfl

theorem entries_write (es : List (String × Data)) (sorted : Entries.Sorted es)
    (ordered : EverywhereEntries Data.Sorted es)
    (keys : ∀ e ∈ es, (Text.encode e.1).length < 2 ^ 32) (short : EverywhereEntries HasRoom es)
    {fuel depth : Nat} (shallow : Data.depthEntries es ≤ depth)
    (enough : 4 * (writeEntries es).length < fuel)
    {before : Entries Data} (after : ∀ a ∈ before, ∀ e ∈ es, a.1 < e.1) (rest : Bytes) :
    entries fuel depth es.length (writeEntries es ++ rest) before =
      some (before ++ Data.normalizeEntries es, rest) := by
  obtain ⟨fuel, rfl⟩ : ∃ more, fuel = more + 1 := ⟨fuel - 1, by omega⟩
  match es with
  | [] => simp [entries, writeEntries, Data.normalizeEntries]
  | (k, d) :: es =>
    have some := List.length_pos_iff.mpr (write_ne_nil d)
    rw [Data.depthEntries] at shallow
    rw [writeEntries, List.length_append, List.length_append] at enough
    have header := announces_textHeader (keys _ List.mem_cons_self)
    rw [writeEntries, text, List.append_assoc, List.append_assoc, List.append_assoc, List.length_cons,
      entries, key_text _ header]
    simp only [Option.bind_eq_bind, Option.bind_some]
    rw [value_write d ordered.1 short.1 (by omega) (by omega), Option.bind_some,
      Entries.insert_of_after after,
      entries_write es (List.pairwise_cons.mp sorted).2 ordered.2
        (fun e among ↦ keys e (List.mem_cons_of_mem _ among)) short.2 (by omega) (by omega)
        (Entries.lt_of_sorted_cons after sorted _) rest,
      List.append_assoc]
    rfl

end

theorem readFirst?_write {d : Data} (ordered : d.Ordered) (short : Short d)
    (shallow : d.depth ≤ maxDepth) (rest : Bytes) :
    readFirst? (write d ++ rest) = some (d.normalize, rest) := by
  apply value_write d ordered short shallow
  rw [List.length_append]
  omega

/-- A tree that is not too deep and whose texts, lists and maps have room in their headers is read back,
whatever bytes stand behind it, every integer in its preferred form. -/
theorem decode_encode_append [Wording] {d : Data} (ordered : d.Ordered) (short : Short d)
    (shallow : d.depth ≤ maxDepth) (rest : Bytes) :
    Format.msgpack.decode (Format.msgpack.encode d ++ rest) = .ok d.normalize := by
  have whole : read? (write d ++ rest) = some d.normalize :=
    congrArg (Option.map Prod.fst) (readFirst?_write ordered short shallow rest)
  rw [Format.decode_eq_ok_iff, Format.read?, Format.encode, whole]

/-- A document with every kind of data, numbers on both sides of the sizes of words among them. -/
def sample : Data := .map [
  ("", .list [.null, .bool true, .bool false, .list [], .map []]),
  ("numbers", .list [.int Int64.minValue, .int (-129), .int (-33), .int (-32), .int 128, .uint 7,
    .uint 65536, .uint 0x8000000000000000, .uint 0xFFFFFFFFFFFFFFFF]),
  ("points", .list [.float ⟨0x8000000000000000⟩, .float ⟨0x7FF8000000000001⟩]),
  ("é", .map [("漢", .string "thirty-two bytes need one header")])]

attribute [local instance] Wording.brief

/-- The byte that starts no value stands behind the document, and one that would start another. -/
theorem decode_encode_append_sample :
    sample.Ordered ∧ Short sample ∧ sample.depth ≤ maxDepth ∧
      Format.msgpack.decode (Format.msgpack.encode sample ++ [0xC1, 0x07]) = .ok (.map [
        ("", .list [.null, .bool true, .bool false, .list [], .map []]),
        ("numbers", .list [.int Int64.minValue, .int (-129), .int (-33), .int (-32), .int 128, .int 7,
          .int 65536, .uint 0x8000000000000000, .uint 0xFFFFFFFFFFFFFFFF]),
        ("points", .list [.float ⟨0x8000000000000000⟩, .float ⟨0x7FF8000000000001⟩]),
        ("é", .map [("漢", .string "thirty-two bytes need one header")])]) := by
  have ordered : sample.Ordered := by decide
  have short : Short sample := by decide
  have shallow : sample.depth ≤ maxDepth := by decide
  refine ⟨ordered, short, shallow, (decode_encode_append ordered short shallow [0xC1, 0x07]).trans ?_⟩
  cbv

end Troupe.MessagePack
