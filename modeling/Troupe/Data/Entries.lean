/-!
# Entries in key order

The contents of a map: pairs of a key and a value whose keys increase strictly in the order of their
code points, which is also the order of their UTF-8 bytes.  `insert`, `erase` and `ofList` keep the order;
`find?`, `contains` and `after?` read it.
-/

namespace Troupe

abbrev Entries (α : Type) := List (String × α)

namespace Entries

variable {α : Type}

def Sorted (es : Entries α) : Prop := es.Pairwise fun a b ↦ a.1 < b.1

def find? (key : String) : Entries α → Option α
  | [] => none
  | (k, v) :: rest => if k = key then some v else find? key rest

def contains (key : String) (es : Entries α) : Bool := (find? key es).isSome

/-- Puts a value under a key, in place of the value held there before. -/
def insert (key : String) (value : α) : Entries α → Entries α
  | [] => [(key, value)]
  | (k, v) :: rest =>
    if key = k then (key, value) :: rest
    else if key < k then (key, value) :: (k, v) :: rest
    else (k, v) :: insert key value rest

def erase (key : String) : Entries α → Entries α
  | [] => []
  | (k, v) :: rest => if k = key then rest else (k, v) :: erase key rest

/-- The first pair whose key comes after `key`, or the first of all if none is given. -/
def after? (key : Option String) (es : Entries α) : Option (String × α) :=
  List.find? (fun e ↦ key.all fun k ↦ decide (k < e.1)) es

def keys (es : Entries α) : List String := es.map Prod.fst

/-- The entries that a sequence of insertions leaves: the last value under each key. -/
def ofList (es : List (String × α)) : Entries α :=
  es.foldl (fun acc e ↦ insert e.1 e.2 acc) []

/-! ## Looking up after a change -/

@[simp] theorem find?_nil (key : String) : find? key ([] : Entries α) = none := rfl

theorem find?_insert_self (key : String) (value : α) (es : Entries α) :
    find? key (insert key value es) = some value := by
  induction es with
  | nil => simp [insert, find?]
  | cons e rest ih =>
    rcases e with ⟨k, v⟩
    by_cases same : key = k
    · simp [insert, find?, same]
    · by_cases before : key < k
      · simp [insert, find?, same, before]
      · have apart : k ≠ key := fun h ↦ same h.symm
        simpa [insert, find?, same, before, apart] using ih

theorem find?_insert_of_ne {key other : String} (apart : other ≠ key) (value : α) (es : Entries α) :
    find? other (insert key value es) = find? other es := by
  induction es with
  | nil => simp [insert, find?, apart.symm]
  | cons e rest ih =>
    rcases e with ⟨k, v⟩
    by_cases same : key = k
    · subst same
      simp [insert, find?, apart.symm]
    · by_cases before : key < k
      · simp [insert, find?, same, before, apart.symm]
      · simp [insert, find?, same, before, ih]

end Entries

end Troupe
