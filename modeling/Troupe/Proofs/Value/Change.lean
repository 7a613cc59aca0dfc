import Troupe.Proofs.Entries
import Troupe.Proofs.Value.Reach
import Troupe.Value.Container

/-!
# Changes of lists and maps

What a program does to its lists and maps is a sequence of `Change`s: it makes new ones, and it appends,
replaces, inserts, resizes, puts and removes through the handles that it has.  Whatever values it stores,
a change touches at most the list or map of the one handle that it goes through (`Heap.Effect`).  So a part
of the heap that no change goes to stays as it was (`Heap.sameAt_changed`), and a part from which no handle
is stored elsewhere stays out of reach (`Heap.leads_changed`).
-/

namespace Troupe

/-- One thing that a program does to lists and maps. -/
inductive Change where
  /-- makes a list -/
  | newList (items : List Value)
  /-- makes a map -/
  | newMap (entries : Entries Value)
  /-- adds an element at the end of a list -/
  | append (list : ListRef) (v : Value)
  /-- replaces an element of a list -/
  | replace (list : ListRef) (position : Int64) (v : Value)
  /-- inserts an element into a list -/
  | insertBefore (list : ListRef) (position : Int64) (v : Value)
  /-- cuts or pads a list -/
  | resize (list : ListRef) (size : Nat)
  /-- puts a value under a key of a map -/
  | put (map : MapRef) (key : String) (v : Value)
  /-- removes a key of a map -/
  | remove (map : MapRef) (key : String)
deriving DecidableEq, Repr

namespace Change

/-- The handle that a change goes through. -/
def target? : Change → Option Value
  | .newList _ | .newMap _ => none
  | .append r _ | .replace r _ _ | .insertBefore r _ _ | .resize r _ => some (.list r)
  | .put r _ _ | .remove r _ => some (.map r)

/-- The values that a change stores. -/
def stored : Change → List Value
  | .newList items => items
  | .newMap entries => entries.map Prod.snd
  | .append _ v | .replace _ _ v | .insertBefore _ _ v | .put _ _ v => [v]
  | .resize _ _ | .remove _ _ => []

end Change

namespace Heap

variable {h g k : Heap} {v w : Value}

/-- The heap after a change. -/
def change (h : Heap) : Change → Heap
  | .newList items => (h.newList items).2
  | .newMap entries => (h.newMap entries).2
  | .append r v => h.append r v
  | .replace r position v => (h.replace r position v).2
  | .insertBefore r position v => (h.insertBefore r position v).2
  | .resize r size => h.resize r size
  | .put r key v => h.put r key v
  | .remove r key => (h.remove r key).2

/-- The heap after a sequence of changes. -/
def changed (h : Heap) (changes : List Change) : Heap := changes.foldl change h

/-! ## Heaps that grow -/

/-- A heap has all lists and maps of another. -/
structure Grows (h g : Heap) : Prop where
  /-- no fewer lists -/
  lists : h.lists.size ≤ g.lists.size
  /-- no fewer maps -/
  maps : h.maps.size ≤ g.maps.size

theorem Grows.refl (h : Heap) : h.Grows h := ⟨Nat.le_refl _, Nat.le_refl _⟩

theorem Grows.trans (first : h.Grows g) (second : g.Grows k) : h.Grows k :=
  ⟨first.lists.trans second.lists, first.maps.trans second.maps⟩

theorem Grows.size_le (grows : h.Grows g) : h.size ≤ g.size := Nat.add_le_add grows.lists grows.maps

theorem Grows.has (grows : h.Grows g) (has : h.Has v) : g.Has v := by
  cases v with
  | list r => exact Nat.lt_of_lt_of_le has grows.lists
  | map r => exact Nat.lt_of_lt_of_le has grows.maps
  | null | bool b | int i | uint u | float x | string s => exact has

/-- A heap has all lists and maps of another, and they hold the same. -/
structure Extends (h g : Heap) : Prop extends Grows h g where
  /-- they hold the same -/
  same : ∀ v, h.Has v → h.SameAt g v

theorem Extends.refl (h : Heap) : h.Extends h := ⟨.refl h, fun v _ ↦ .refl h v⟩

theorem Extends.trans (first : h.Extends g) (second : g.Extends k) : h.Extends k :=
  ⟨first.toGrows.trans second.toGrows,
    fun v has ↦ (first.same v has).trans (second.same v (first.has has))⟩

/-- All that a heap without dangling handles knows is the same in every heap that extends it. -/
theorem Extends.agrees (extension : h.Extends g) (closed : h.Closed) : h.Agrees g h.Knows where
  inward v _ := closed v
  same v knows := by
    by_cases handle : v.isHandle
    · exact extension.same v (knows handle)
    · exact .of_scalar handle

/-! ## What a change does -/

/-- What comes of a heap by a change, told by the handle that it goes through and the values that it
stores. -/
inductive Effect (h : Heap) (stored : List Value) : Option Value → Heap → Prop
  /-- a list is made -/
  | newList (xs : List Value) (brought : ∀ x ∈ xs, x ∈ stored) : Effect h stored none (h.newList xs).2
  /-- a map is made -/
  | newMap (es : Entries Value) (brought : ∀ e ∈ es, e.2 ∈ stored) :
    Effect h stored none (h.newMap es).2
  /-- the list of the handle gets other items -/
  | list (r : ListRef) (xs : List Value)
    (brought : ∀ x ∈ xs, x ∈ h.items r ∨ x ∈ stored ∨ x = .null) :
    Effect h stored (some (.list r)) (h.setItems r xs)
  /-- the map of the handle gets other entries -/
  | map (r : MapRef) (es : Entries Value)
    (brought : ∀ e ∈ es, e ∈ h.entries r ∨ e.2 ∈ stored) :
    Effect h stored (some (.map r)) (h.setEntries r es)
  /-- nothing -/
  | nothing (target : Option Value) : Effect h stored target h

theorem mem_of_set? {position : Int64} {x y : Value} {xs ys : List Value}
    (set : Sequence.set? position x xs = some ys) (mem : y ∈ ys) : y ∈ xs ∨ y = x := by
  obtain ⟨i, -, rfl⟩ := Option.map_eq_some_iff.mp set
  exact List.mem_or_eq_of_mem_set mem

theorem mem_of_insert? {position : Int64} {x y : Value} {xs ys : List Value}
    (insert : Sequence.insert? position x xs = some ys) (mem : y ∈ ys) : y ∈ xs ∨ y = x := by
  rw [Sequence.insert?] at insert
  split at insert
  · cases insert
    simpa using mem
  · obtain ⟨i, -, rfl⟩ := Option.map_eq_some_iff.mp insert
    rcases List.mem_append.mp mem with before | after
    · exact .inl (List.mem_of_mem_take before)
    · rcases List.mem_cons.mp after with same | after
      · exact .inr same
      · exact .inl (List.mem_of_mem_drop after)

theorem mem_of_resize {size : Nat} {x : Value} {xs : List Value}
    (mem : x ∈ Sequence.resize .null size xs) : x ∈ xs ∨ x = .null := by
  rcases List.mem_append.mp mem with kept | padded
  · exact .inl (List.mem_of_mem_take kept)
  · exact .inr (List.eq_of_mem_replicate padded)

theorem effect_change (h : Heap) (c : Change) : h.Effect c.stored c.target? (h.change c) := by
  cases c with
  | newList items => exact .newList items fun x mem ↦ mem
  | newMap entries => exact .newMap entries fun e mem ↦ List.mem_map_of_mem mem
  | append r v =>
    apply Effect.list r
    intro x mem
    simpa [Change.stored, or_assoc] using Or.inl (b := x = .null) (List.mem_append.mp mem)
  | replace r position v =>
    simp only [change, replace]
    split
    next ys set =>
      apply Effect.list r
      intro x mem
      simpa [Change.stored, or_assoc] using Or.inl (b := x = .null) (mem_of_set? set mem)
    next => exact .nothing _
  | insertBefore r position v =>
    simp only [change, insertBefore]
    split
    next ys insert =>
      apply Effect.list r
      intro x mem
      simpa [Change.stored, or_assoc] using Or.inl (b := x = .null) (mem_of_insert? insert mem)
    next => exact .nothing _
  | resize r size =>
    apply Effect.list r
    intro x mem
    exact (mem_of_resize mem).imp_right .inr
  | put r key v =>
    apply Effect.map r
    intro e mem
    exact (Entries.mem_of_mem_insert mem).symm.imp_right fun same ↦ by simp [Change.stored, same]
  | remove r key =>
    simp only [change, remove]
    split
    · apply Effect.map r
      intro e mem
      exact .inl (Entries.mem_of_mem_erase mem)
    · exact .nothing _

variable {stored : List Value} {target : Option Value}

theorem Effect.grows (effect : h.Effect stored target g) : h.Grows g := by
  cases effect with
  | newList xs brought => exact ⟨by simp [Heap.newList], Nat.le_refl _⟩
  | newMap es brought => exact ⟨Nat.le_refl _, by simp [Heap.newMap]⟩
  | list r xs brought => exact ⟨by simp [setItems], Nat.le_refl _⟩
  | map r es brought => exact ⟨Nat.le_refl _, by simp [setEntries]⟩
  | nothing => exact .refl h

/-- A list that is given the items it has stays as it is. -/
theorem setItems_items (h : Heap) (r : ListRef) : h.setItems r (h.items r) = h := by
  have same : h.lists.setIfInBounds r.index (h.lists.getD r.index []) = h.lists := by
    apply Array.ext (by simp)
    intro i _ within
    rw [Array.getElem_setIfInBounds within]
    split
    · next here =>
      subst here
      simp [within]
    · rfl
  rw [setItems, items, same]

theorem setItems_of_not_has {r : ListRef} (absent : ¬ h.Has (.list r)) (xs : List Value) :
    h.setItems r xs = h := by
  rw [setItems, Array.setIfInBounds_eq_of_size_le (Nat.le_of_not_lt absent)]

theorem setItems_setItems (h : Heap) (r : ListRef) (xs ys : List Value) :
    (h.setItems r xs).setItems r ys = h.setItems r ys := by
  simp [setItems]

theorem items_setItems_self {r : ListRef} (has : h.Has (.list r)) (xs : List Value) :
    (h.setItems r xs).items r = xs := by
  have within : r.index < h.lists.size := has
  simp [items, setItems, within]

theorem items_setItems_of_ne {r s : ListRef} (apart : s ≠ r) (xs : List Value) :
    (h.setItems r xs).items s = h.items s := by
  have other : r.index ≠ s.index := fun same ↦ apart (ListRef.ext same.symm)
  simp [items, setItems, Array.getElem?_setIfInBounds_ne other]

theorem entries_setEntries_self {r : MapRef} (has : h.Has (.map r)) (es : Entries Value) :
    (h.setEntries r es).entries r = es := by
  have within : r.index < h.maps.size := has
  simp [entries, setEntries, within]

theorem entries_setEntries_of_ne {r s : MapRef} (apart : s ≠ r) (es : Entries Value) :
    (h.setEntries r es).entries s = h.entries s := by
  have other : r.index ≠ s.index := fun same ↦ apart (MapRef.ext same.symm)
  simp [entries, setEntries, Array.getElem?_setIfInBounds_ne other]

theorem items_newList_of_lt {r : ListRef} (old : r.index < h.lists.size) (xs : List Value) :
    (h.newList xs).2.items r = h.items r := by
  simp [items, newList, Array.getElem?_push_lt, old]

theorem items_newList_of_gt {r : ListRef} (dangling : h.lists.size < r.index) (xs : List Value) :
    (h.newList xs).2.items r = [] := by
  have outside : (h.newList xs).2.lists.size ≤ r.index := by
    simp only [newList, Array.size_push]
    omega
  simp [items, Array.getElem?_eq_none outside]

theorem items_newList_self (xs : List Value) : (h.newList xs).2.items (h.newList xs).1 = xs := by
  simp [items, newList]

theorem entries_newMap_of_lt {r : MapRef} (old : r.index < h.maps.size) (es : Entries Value) :
    (h.newMap es).2.entries r = h.entries r := by
  simp [entries, newMap, Array.getElem?_push_lt, old]

theorem entries_newMap_of_gt {r : MapRef} (dangling : h.maps.size < r.index) (es : Entries Value) :
    (h.newMap es).2.entries r = [] := by
  have outside : (h.newMap es).2.maps.size ≤ r.index := by
    simp only [newMap, Array.size_push]
    omega
  simp [entries, Array.getElem?_eq_none outside]

theorem entries_newMap_self (es : Entries Value) : (h.newMap es).2.entries (h.newMap es).1 = es := by
  simp [entries, newMap]

theorem mem_of_mem_items_setItems {r : ListRef} {xs : List Value}
    (mem : v ∈ (h.setItems r xs).items r) : v ∈ xs := by
  by_cases within : r.index < h.lists.size
  · simpa [items, setItems, Array.getElem?_setIfInBounds_self_of_lt within] using mem
  · simp [items, setItems, within] at mem

theorem mem_of_mem_entries_setEntries {r : MapRef} {es : Entries Value} {e : String × Value}
    (mem : e ∈ (h.setEntries r es).entries r) : e ∈ es := by
  by_cases within : r.index < h.maps.size
  · simpa [entries, setEntries, Array.getElem?_setIfInBounds_self_of_lt within] using mem
  · simp [entries, setEntries, within] at mem

/-- A list or map through whose handle the change does not go stays as it was. -/
theorem Effect.sameAt (effect : h.Effect stored target g) (has : h.Has v)
    (apart : target ≠ some v) : h.SameAt g v := by
  cases effect with
  | newList xs brought =>
    cases v with
    | list r => exact items_newList_of_lt has xs
    | map r => rfl
    | null | bool b | int i | uint u | float x | string s => trivial
  | newMap es brought =>
    cases v with
    | map r => exact entries_newMap_of_lt has es
    | list r => rfl
    | null | bool b | int i | uint u | float x | string s => trivial
  | list r xs brought =>
    cases v with
    | list s =>
      apply items_setItems_of_ne
      rintro rfl
      exact apart rfl
    | map s => rfl
    | null | bool b | int i | uint u | float x | string s => trivial
  | map r es brought =>
    cases v with
    | map s =>
      apply entries_setEntries_of_ne
      rintro rfl
      exact apart rfl
    | list s => rfl
    | null | bool b | int i | uint u | float x | string s => trivial
  | nothing => exact .refl h v

theorem extends_newList (h : Heap) (xs : List Value) : h.Extends (h.newList xs).2 :=
  have effect : h.Effect xs none (h.newList xs).2 := .newList xs fun _ mem ↦ mem
  ⟨effect.grows, fun _ has ↦ effect.sameAt has nofun⟩

theorem extends_newMap (h : Heap) (es : Entries Value) : h.Extends (h.newMap es).2 :=
  have effect : h.Effect (es.map Prod.snd) none (h.newMap es).2 :=
    .newMap es fun _ mem ↦ List.mem_map_of_mem mem
  ⟨effect.grows, fun _ has ↦ effect.sameAt has nofun⟩

/-- What is inside a list or map after a change was inside it before, or was stored by the change, or is a
null that pads a list. -/
theorem Effect.mem_inside (effect : h.Effect stored target g) (mem : w ∈ g.inside v) :
    w ∈ h.inside v ∨ w ∈ stored ∨ w = .null := by
  cases effect with
  | newList xs brought =>
    cases v with
    | list r =>
      rcases Nat.lt_trichotomy r.index h.lists.size with old | new | dangling
      · rw [inside_list, items_newList_of_lt old] at mem
        exact .inl mem
      · obtain rfl : r = (h.newList xs).1 := ListRef.ext new
        rw [inside_list, items_newList_self] at mem
        exact .inr (.inl (brought w mem))
      · rw [inside_list, items_newList_of_gt dangling] at mem
        exact absurd mem List.not_mem_nil
    | map r => exact .inl mem
    | null | bool b | int i | uint u | float x | string s => exact .inl mem
  | newMap es brought =>
    cases v with
    | map r =>
      rcases Nat.lt_trichotomy r.index h.maps.size with old | new | dangling
      · rw [inside_map, entries_newMap_of_lt old] at mem
        exact .inl mem
      · obtain rfl : r = (h.newMap es).1 := MapRef.ext new
        rw [inside_map, entries_newMap_self] at mem
        obtain ⟨e, among, rfl⟩ := List.mem_map.mp mem
        exact .inr (.inl (brought e among))
      · rw [inside_map, entries_newMap_of_gt dangling] at mem
        exact absurd mem List.not_mem_nil
    | list r => exact .inl mem
    | null | bool b | int i | uint u | float x | string s => exact .inl mem
  | list r xs brought =>
    cases v with
    | list s =>
      by_cases same : s = r
      · subst same
        exact brought w (mem_of_mem_items_setItems mem)
      · rw [inside_list, items_setItems_of_ne same] at mem
        exact .inl mem
    | map s => exact .inl mem
    | null | bool b | int i | uint u | float x | string s => exact .inl mem
  | map r es brought =>
    cases v with
    | map s =>
      by_cases same : s = r
      · subst same
        obtain ⟨e, among, rfl⟩ := List.mem_map.mp mem
        rcases brought e (mem_of_mem_entries_setEntries among) with old | new
        · exact .inl (List.mem_map_of_mem old)
        · exact .inr (.inl new)
      · rw [inside_map, entries_setEntries_of_ne same] at mem
        exact .inl mem
    | list s => exact .inl mem
    | null | bool b | int i | uint u | float x | string s => exact .inl mem
  | nothing => exact .inl mem

/-! ## What a sequence of changes does -/

theorem grows_changed (h : Heap) (changes : List Change) : h.Grows (h.changed changes) := by
  induction changes generalizing h with
  | nil => exact .refl h
  | cons c rest ih => exact (h.effect_change c).grows.trans (ih (h.change c))

/-- A list or map through whose handle no change goes stays as it was. -/
theorem sameAt_changed {changes : List Change} (has : h.Has v)
    (apart : ∀ c ∈ changes, c.target? ≠ some v) : h.SameAt (h.changed changes) v := by
  induction changes generalizing h with
  | nil => exact .refl h v
  | cons c rest ih =>
    have effect := h.effect_change c
    have first : h.SameAt (h.change c) v := effect.sameAt has (apart c List.mem_cons_self)
    exact first.trans (ih (effect.grows.has has) fun d mem ↦ apart d (List.mem_cons_of_mem _ mem))

/-- Values of which those inside are of the same sort lead to nothing else after changes that store
nothing else. -/
theorem leads_changed {P : Value → Prop} (null : P .null)
    (inward : ∀ v, P v → ∀ w ∈ h.inside v, P w) {changes : List Change}
    (stores : ∀ c ∈ changes, ∀ x ∈ c.stored, P x) (start : P v)
    (leads : (h.changed changes).Leads v w) : P w := by
  induction changes generalizing h with
  | nil => exact leads.induction inward start
  | cons c rest ih =>
    refine ih ?_ (fun d mem ↦ stores d (List.mem_cons_of_mem _ mem)) leads
    intro u part x mem
    rcases (h.effect_change c).mem_inside mem with old | new | rfl
    · exact inward u part x old
    · exact stores c List.mem_cons_self x new
    · exact null

end Heap

end Troupe
