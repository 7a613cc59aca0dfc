import Troupe.Codec
import Troupe.Proofs.Codec
import Troupe.Proofs.Json.Number
import Troupe.Proofs.Json.Text

/-!
# JSON is read as it was written

A tree without floating-point numbers that is not too deep is read back from its text, every integer in its
preferred form.  The first character of a text decides how it is read, so what comes first is settled before
the induction; a number ends where no character goes on with it, and so a tree is read from the start of
any text that does not (`Stops`).
-/

namespace Troupe.Json

open Data (Everywhere EverywhereItems EverywhereEntries NotFloat)

/-! ## First characters -/

/-- The characters that start no number. -/
def others : List Char := [' ', '\n', '\t', '\r', 'n', 't', 'f', '"', '[', ']', '\x7b', '\x7d', ',', ':']

theorem stops_nil : Stops [] := by
  rintro c same
  cases same

theorem stops_cons {c : Char} (other : c ∈ others) (rest : List Char) : Stops (c :: rest) := by
  have ends : others.all fun c ↦ !Numeral.isDigit c && c != '.' && c != 'e' && c != 'E' := by decide
  rintro d same
  obtain rfl := Option.some.inj same
  simpa [and_assoc] using List.all_eq_true.mp ends c other

/-- The text starts with a character that is no blank and closes no list. -/
def Opens (cs : List Char) : Prop := ∃ c more, cs = c :: more ∧ c ∉ [' ', '\n', '\t', '\r', ']']

/-- The text starts with a character of a number. -/
def OpensNumber (cs : List Char) : Prop := ∃ c more, cs = c :: more ∧ c ∉ others

theorem opensNumber_nat (n : Nat) : OpensNumber (toString n).toList := by
  obtain ⟨c, ds, first, digit⟩ := exists_toString_nat_eq_cons n
  refine ⟨c, ds, first, fun other ↦ ?_⟩
  rw [(stops_cons other [] c rfl).1] at digit
  cases digit

theorem opensNumber_int (i : Int) : OpensNumber (toString i).toList := by
  cases i with
  | ofNat n => exact opensNumber_nat n
  | negSucc m => exact ⟨'-', (toString (m + 1)).toList, by simp [toString, Int.repr], by decide⟩

theorem OpensNumber.opens {cs : List Char} (h : OpensNumber cs) : Opens cs := by
  obtain ⟨c, more, first, number⟩ := h
  have blanks : [' ', '\n', '\t', '\r', ']'] ⊆ others := by simp [others]
  exact ⟨c, more, first, fun among ↦ number (blanks among)⟩

theorem skipBlanks_of_opens {cs : List Char} (h : Opens cs) (rest : List Char) :
    skipBlanks (cs ++ rest) = cs ++ rest := by
  obtain ⟨c, more, rfl, lead⟩ := h
  simp only [List.mem_cons, not_or] at lead
  simp [skipBlanks, lead]

theorem opens_chars {d : Data} (exact : NotFloat d) : Opens (chars d) := by
  cases d with
  | null => exact ⟨_, _, rfl, by decide⟩
  | bool b => cases b <;> exact ⟨_, _, rfl, by decide⟩
  | int i => exact (opensNumber_int i.toInt).opens
  | uint u => exact (opensNumber_nat u.toNat).opens
  | float x => exact exact.elim
  | string s => exact ⟨'"', _, rfl, by decide⟩
  | list items => exact ⟨'[', _, rfl, by decide⟩
  | map entries => exact ⟨'\x7b', _, rfl, by decide⟩

/-! ## One value -/

section Value

variable (fuel depth : Nat) (rest : List Char)

theorem value_number {cs : List Char} (h : OpensNumber cs) :
    value (fuel + 1) depth (cs ++ rest) = number (cs ++ rest) := by
  have skip := skipBlanks_of_opens h.opens rest
  obtain ⟨c, more, rfl, lead⟩ := h
  have apart {d : Char} {rest' : List Char} (other : d ∈ others) (first : c :: more ++ rest = d :: rest') :
      False := lead ((List.cons.inj first).1 ▸ other)
  rw [value, skip]
  split
  · next first => exact (apart (by decide) first).elim
  · next first => exact (apart (by decide) first).elim
  · next first => exact (apart (by decide) first).elim
  · next first => exact (apart (by decide) first).elim
  · next first => exact (apart (by decide) first).elim
  · next first => exact (apart (by decide) first).elim
  · rfl

theorem value_text (s : String) :
    value (fuel + 1) depth (writeText s ++ rest) = some (.string s, rest) := by
  simp [value, writeText, skipBlanks, text_flatMap]

/-- A list with items is read item by item. -/
theorem value_items {cs : List Char} (h : Opens cs) :
    value (fuel + 1) (depth + 1) ('[' :: (cs ++ rest)) =
      (items fuel depth (cs ++ rest)).map fun (ds, rest) ↦ (.list ds, rest) := by
  have skip := skipBlanks_of_opens h rest
  obtain ⟨c, more, rfl, lead⟩ := h
  have apart : c ≠ ']' := by
    rintro rfl
    exact lead (by decide)
  have bracket (cs : List Char) : skipBlanks ('[' :: cs) = '[' :: cs := by simp [skipBlanks]
  rw [List.cons_append] at skip ⊢
  simp [value, bracket, skip, apart]

/-- A map with entries is read entry by entry. -/
theorem value_entries (k : String) :
    value (fuel + 1) (depth + 1) ('\x7b' :: (writeText k ++ rest)) =
      (entries fuel depth (writeText k ++ rest) []).map fun (es, rest) ↦ (.map es, rest) := by
  simp [value, writeText, skipBlanks]

end Value

/-! ## One item, one entry -/

section Parts

variable {fuel depth : Nat} {cs rest : List Char} {d : Data}

theorem items_last (read : value fuel depth cs = some (d, ']' :: rest)) :
    items (fuel + 1) depth cs = some ([d], rest) := by
  simp [items, read, skipBlanks]

theorem items_comma (read : value fuel depth cs = some (d, ',' :: rest)) :
    items (fuel + 1) depth cs = (items fuel depth rest).map fun (ds, rest) ↦ (d :: ds, rest) := by
  cases next : items fuel depth rest <;> simp [items, read, skipBlanks, next]

variable (k : String) (es : Entries Data)

theorem entries_last (read : value fuel depth cs = some (d, '\x7d' :: rest)) :
    entries (fuel + 1) depth (writeText k ++ ':' :: cs) es = some (Entries.insert k d es, rest) := by
  simp [entries, writeText, skipBlanks, text_flatMap, read]

theorem entries_comma (read : value fuel depth cs = some (d, ',' :: rest)) :
    entries (fuel + 1) depth (writeText k ++ ':' :: cs) es =
      entries fuel depth rest (Entries.insert k d es) := by
  simp [entries, writeText, skipBlanks, text_flatMap, read]

end Parts

/-! ## Containers as they are written -/

theorem charsItems_cons (d : Data) (ds : List Data) :
    charsItems true (d :: ds) = chars d ++ charsItems false ds := by
  simp [charsItems]

theorem charsItems_false (d : Data) (ds : List Data) :
    charsItems false (d :: ds) = ',' :: charsItems true (d :: ds) := by
  simp [charsItems]

theorem charsEntries_cons (k : String) (d : Data) (es : List (String × Data)) :
    charsEntries true ((k, d) :: es) = writeText k ++ ':' :: (chars d ++ charsEntries false es) := by
  simp [charsEntries]

theorem charsEntries_false (e : String × Data) (es : List (String × Data)) :
    charsEntries false (e :: es) = ',' :: charsEntries true (e :: es) := by
  simp [charsEntries]

section Containers

variable {fuel depth : Nat} {rest : List Char} {d : Data}

/-- A list is read if its items are. -/
theorem value_list {ds read : List Data} (opens : Opens (chars d))
    (inside : items fuel depth (charsItems true (d :: ds) ++ ']' :: rest) = some (read, rest)) :
    value (fuel + 1) (depth + 1) (chars (.list (d :: ds)) ++ rest) = some (.list read, rest) := by
  have shape : chars (.list (d :: ds)) ++ rest = '[' :: (chars d ++ (charsItems false ds ++ ']' :: rest)) := by
    simp [chars, charsItems_cons]
  rw [shape, value_items _ _ _ opens, ← List.append_assoc, ← charsItems_cons, inside]
  rfl

/-- A map is read if its entries are. -/
theorem value_map {k : String} {es : List (String × Data)} {read : Entries Data}
    (inside : entries fuel depth (charsEntries true ((k, d) :: es) ++ '\x7d' :: rest) [] = some (read, rest)) :
    value (fuel + 1) (depth + 1) (chars (.map ((k, d) :: es)) ++ rest) = some (.map read, rest) := by
  have shape : chars (.map ((k, d) :: es)) ++ rest =
      '\x7b' :: (writeText k ++ (':' :: (chars d ++ charsEntries false es) ++ '\x7d' :: rest)) := by
    simp [chars, charsEntries_cons]
  rw [shape, value_entries, ← List.append_assoc, ← charsEntries_cons, inside]
  rfl

end Containers

/-! ## Whole trees -/

mutual

/-- A tree is read from the start of any text that does not go on with it.  Two steps a character are
enough. -/
theorem value_chars (d : Data) (ordered : d.Everywhere Data.Sorted) (exact : d.Everywhere NotFloat)
    {fuel depth : Nat} (shallow : d.depth ≤ depth) (enough : 2 * (chars d).length ≤ fuel)
    {rest : List Char} (stops : Stops rest) :
    value fuel depth (chars d ++ rest) = some (d.normalize, rest) := by
  have some := List.length_pos_iff.mpr (chars_ne_nil d)
  obtain ⟨fuel, rfl⟩ : ∃ more, fuel = more + 2 := ⟨fuel - 2, by omega⟩
  match d with
  | .null => simp [value, chars, skipBlanks, word?, Data.normalize]
  | .bool b => cases b <;> simp [value, chars, skipBlanks, word?, Data.normalize]
  | .int i =>
    rw [chars, value_number _ depth rest (opensNumber_int i.toInt), number_int stops]
    rfl
  | .uint u =>
    rw [chars, value_number _ depth rest (opensNumber_nat u.toNat), number_nat stops u.toNat_lt,
      UInt64.ofNat_toNat, Data.normalize]
  | .float x => exact exact.elim
  | .string s => exact value_text _ depth rest s
  | .list ds =>
    rw [Data.depth] at shallow
    obtain ⟨depth, rfl⟩ : ∃ deeper, depth = deeper + 1 := ⟨depth - 1, by omega⟩
    match ds with
    | [] => simp [value, chars, charsItems, skipBlanks, Data.normalize, Data.normalizeItems]
    | d :: ds =>
      have inside : (chars (.list (d :: ds))).length = (charsItems true (d :: ds)).length + 2 := by
        simp [chars]
      exact value_list (opens_chars exact.2.1.root)
        (items_chars (d :: ds) (by simp) ordered.2 exact.2 (by omega) (by omega) rest)
  | .map es =>
    rw [Data.depth] at shallow
    obtain ⟨depth, rfl⟩ : ∃ deeper, depth = deeper + 1 := ⟨depth - 1, by omega⟩
    match es with
    | [] => simp [value, chars, charsEntries, skipBlanks, Data.normalize, Data.normalizeEntries]
    | (k, d) :: es =>
      have inside : (chars (.map ((k, d) :: es))).length = (charsEntries true ((k, d) :: es)).length + 2 := by
        simp [chars]
      exact value_map
        (entries_chars ((k, d) :: es) (by simp) ordered.1 ordered.2 exact.2 (by omega) (by omega) (by simp)
          rest)

/-- The items of a list that has one are read up to its closing bracket. -/
theorem items_chars (ds : List Data) (some : ds ≠ []) (ordered : EverywhereItems Data.Sorted ds)
    (exact : EverywhereItems NotFloat ds) {fuel depth : Nat} (shallow : Data.depthItems ds ≤ depth)
    (enough : 2 * (charsItems true ds).length < fuel) (rest : List Char) :
    items fuel depth (charsItems true ds ++ ']' :: rest) = .some (Data.normalizeItems ds, rest) := by
  obtain ⟨fuel, rfl⟩ : ∃ more, fuel = more + 1 := ⟨fuel - 1, by omega⟩
  match ds with
  | [d] =>
    rw [Data.depthItems] at shallow
    rw [charsItems_cons, List.length_append] at enough
    rw [charsItems_cons, charsItems, List.append_nil]
    exact items_last (value_chars d ordered.1 exact.1 (by omega) (by omega) (stops_cons (by decide) rest))
  | d :: e :: ds =>
    rw [Data.depthItems] at shallow
    rw [charsItems_cons, charsItems_false, List.length_append, List.length_cons] at enough
    rw [charsItems_cons, charsItems_false, List.append_assoc, List.cons_append,
      items_comma (value_chars d ordered.1 exact.1 (by omega) (by omega) (stops_cons (by decide) _)),
      items_chars (e :: ds) (by simp) ordered.2 exact.2 (by omega) (by omega) rest]
    rfl

/-- The entries of a map that has one are read up to its closing brace. -/
theorem entries_chars (es : List (String × Data)) (some : es ≠ []) (sorted : Entries.Sorted es)
    (ordered : EverywhereEntries Data.Sorted es) (exact : EverywhereEntries NotFloat es)
    {fuel depth : Nat} (shallow : Data.depthEntries es ≤ depth)
    (enough : 2 * (charsEntries true es).length < fuel)
    {before : Entries Data} (after : ∀ a ∈ before, ∀ e ∈ es, a.1 < e.1) (rest : List Char) :
    entries fuel depth (charsEntries true es ++ '\x7d' :: rest) before =
      .some (before ++ Data.normalizeEntries es, rest) := by
  obtain ⟨fuel, rfl⟩ : ∃ more, fuel = more + 1 := ⟨fuel - 1, by omega⟩
  match es with
  | [(k, d)] =>
    rw [Data.depthEntries] at shallow
    simp only [charsEntries, List.length_append, List.length_cons] at enough
    rw [charsEntries_cons, charsEntries, List.append_nil, List.append_assoc, List.cons_append,
      entries_last k before
        (value_chars d ordered.1 exact.1 (by omega) (by omega) (stops_cons (by decide) rest)),
      Entries.insert_of_after after]
    rfl
  | (k, d) :: e :: es =>
    rw [Data.depthEntries] at shallow
    simp only [charsEntries_cons, charsEntries_false, List.length_append, List.length_cons] at enough
    rw [charsEntries_cons, charsEntries_false, List.append_assoc, List.cons_append, List.append_assoc,
      List.cons_append, entries_comma k before
        (value_chars d ordered.1 exact.1 (by omega) (by omega) (stops_cons (by decide) _)),
      Entries.insert_of_after after,
      entries_chars (e :: es) (by simp) (List.pairwise_cons.mp sorted).2 ordered.2 exact.2 (by omega)
        (by omega) (Entries.lt_of_sorted_cons after sorted _) rest, List.append_assoc]
    rfl

end

theorem read?_write {d : Data} (ordered : d.Ordered) (exact : d.Everywhere NotFloat)
    (shallow : d.depth ≤ maxDepth) : read? (write d) = some d.normalize := by
  have first : readFirst? (chars d) = some (d.normalize, []) := by
    have whole := value_chars d ordered exact shallow (Nat.le_add_right _ 2) stops_nil
    rwa [List.append_nil] at whole
  rw [read?, write, String.toList_ofList, first]
  rfl

/-- A tree without floating-point numbers that is not too deep is read back from its document, every
integer in its preferred form. -/
theorem decode_encode [Wording] {d : Data} (ordered : d.Ordered) (exact : d.Everywhere NotFloat)
    (shallow : d.depth ≤ maxDepth) : Format.json.decode (Format.json.encode d) = .ok d.normalize := by
  rw [Format.decode_eq_ok_iff, Format.read?, Format.encode, Text.decode?_encode, Option.bind_some,
    read?_write ordered exact shallow]

/-- A document with every kind of data but floating-point numbers. -/
def sample : Data := .map [
  ("", .list [.null, .bool true, .bool false, .list [], .map []]),
  ("numbers", .list [.int Int64.minValue, .int 0, .uint 7, .uint 0x8000000000000000,
    .uint 0xFFFFFFFFFFFFFFFF]),
  ("quote \" \\ /", .string "\x00\x08\t\n\x0c\r\x1f\x7f"),
  ("é", .map [("漢", .string "🎭")])]

attribute [local instance] Wording.brief

theorem decode_encode_sample :
    sample.Ordered ∧ sample.Everywhere NotFloat ∧ sample.depth ≤ maxDepth ∧
      Format.json.decode (Format.json.encode sample) = .ok (.map [
        ("", .list [.null, .bool true, .bool false, .list [], .map []]),
        ("numbers", .list [.int Int64.minValue, .int 0, .int 7, .uint 0x8000000000000000,
          .uint 0xFFFFFFFFFFFFFFFF]),
        ("quote \" \\ /", .string "\x00\x08\t\n\x0c\r\x1f\x7f"),
        ("é", .map [("漢", .string "🎭")])]) := by
  have ordered : sample.Ordered := by decide
  have exact : sample.Everywhere NotFloat := by decide
  have shallow : sample.depth ≤ maxDepth := by decide
  refine ⟨ordered, exact, shallow, (decode_encode ordered exact shallow).trans ?_⟩
  cbv

end Troupe.Json
