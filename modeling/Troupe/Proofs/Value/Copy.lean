import Troupe.Proofs.Value.Change

/-!
# Copies are independent

Storing a tree makes a list or a map for each of its lists and maps, the inner ones first.  So nothing that
was there before is touched, and each of the new ones is inside one other only, at one position
(`Heap.Planted`).

A deep copy stores the tree that a value stands for, which makes a new list of copies of the items
(`Heap.deepCopy_list`), or a new map of copies of the values (`Heap.deepCopy_map`).  The copy stands for the
same tree, and it shares no list and no map with anything older: whatever is changed later through its
handles is not seen through an older value, nor the other way round (`Heap.deepCopy_isCopy`).
-/

namespace Troupe

namespace Heap

variable {h k l g : Heap} {v w x : Value} {vs : List Value}

/-! ## Values in lists and maps of their own -/

/-- From one heap to the next, values were stored in lists and maps of their own; a third heap, which
extends the second, is where they are followed. -/
structure Planted (h k g : Heap) (vs : List Value) : Prop where
  /-- what was there before is as it was -/
  extension : h.Extends k
  /-- every new list and map is reached from one of the values -/
  reached : ∀ w, k.Has w → h.Has w ∨ ∃ v ∈ vs, g.Leads v w
  /-- the values lead to new lists and maps only -/
  new : ∀ v ∈ vs, ∀ w, g.Leads v w → w.isHandle → k.Has w ∧ ¬ h.Has w
  /-- one path only leads to a list or map, from one of the values -/
  sole : ∀ (i j : Nat) v u p q w, vs[i]? = some v → vs[j]? = some u → g.follow v p = some w →
    g.follow u q = some w → w.isHandle → i = j ∧ p = q

/-- A path from a scalar stays there. -/
theorem eq_of_follow_scalar (scalar : ¬ v.isHandle) {path : List Nat}
    (follows : h.follow v path = some w) : w = v := by
  cases path with
  | nil => exact (Option.some.inj follows).symm
  | cons i rest =>
    obtain ⟨u, found, -⟩ := follow_cons_eq_some_iff.mp follows
    exact absurd (isHandle_of_mem_inside (List.mem_of_getElem? found)) scalar

theorem Planted.nil (h g : Heap) : Planted h h g [] where
  extension := .refl h
  reached _ has := .inl has
  new _ mem := absurd mem List.not_mem_nil
  sole := nofun

/-- A scalar needs no storage. -/
theorem Planted.scalar (scalar : ¬ v.isHandle) : Planted h h g [v] where
  extension := .refl h
  reached _ has := .inl has
  new u mem w leads handle := by
    obtain rfl := List.mem_singleton.mp mem
    obtain ⟨path, follows⟩ := leads
    obtain rfl := eq_of_follow_scalar scalar follows
    exact absurd handle scalar
  sole i j a b p q w atI atJ first _ handle := by
    obtain rfl := List.mem_singleton.mp (List.mem_of_getElem? atI)
    obtain rfl := eq_of_follow_scalar scalar first
    exact absurd handle scalar

/-- One value is stored after the other. -/
theorem Planted.cons (first : Planted h k g [v]) (others : Planted k l g vs) :
    Planted h l g (v :: vs) where
  extension := first.extension.trans others.extension
  reached w has := by
    rcases others.reached w has with before | ⟨u, mem, leads⟩
    · refine (first.reached w before).imp_right ?_
      rintro ⟨u, mem, leads⟩
      obtain rfl := List.mem_singleton.mp mem
      exact ⟨u, List.mem_cons_self, leads⟩
    · exact .inr ⟨u, List.mem_cons_of_mem _ mem, leads⟩
  new u mem w leads handle := by
    rcases List.mem_cons.mp mem with rfl | later
    · obtain ⟨has, absent⟩ := first.new u List.mem_cons_self w leads handle
      exact ⟨others.extension.has has, absent⟩
    · obtain ⟨has, absent⟩ := others.new u later w leads handle
      exact ⟨has, fun old ↦ absent (first.extension.has old)⟩
  sole i j a b p q w atI atJ follows also handle := by
    -- what the first value leads to was there before the other values were stored
    have apart : ∀ u ∈ vs, g.Leads v w → ¬ g.Leads u w := fun u mem leads also ↦
      (others.new u mem w also handle).2 (first.new v List.mem_cons_self w leads handle).1
    cases i with
    | zero =>
      obtain rfl : v = a := Option.some.inj atI
      cases j with
      | zero => exact first.sole 0 0 v b p q w rfl atJ follows also handle
      | succ j => exact absurd ⟨q, also⟩ (apart b (List.mem_of_getElem? atJ) ⟨p, follows⟩)
    | succ i =>
      cases j with
      | zero =>
        obtain rfl : v = b := Option.some.inj atJ
        exact absurd ⟨p, follows⟩ (apart a (List.mem_of_getElem? atI) ⟨q, also⟩)
      | succ j =>
        obtain ⟨rfl, rfl⟩ := others.sole i j a b p q w atI atJ follows also handle
        exact ⟨rfl, rfl⟩

/-- A list or map that is made around values is not among those that they lead to. -/
theorem Planted.ne_of_follow_cons (planted : Planted h k g vs) (new : ¬ k.Has x) (inside : g.inside x = vs)
    {i : Nat} {path : List Nat} (follows : g.follow x (i :: path) = some w) (handle : w.isHandle) :
    w ≠ x := by
  rintro rfl
  obtain ⟨a, found, follows⟩ := follow_cons_eq_some_iff.mp follows
  rw [inside] at found
  exact new (planted.new a (List.mem_of_getElem? found) w ⟨path, follows⟩ handle).1

/-- A list or map is made around values that have been stored. -/
theorem Planted.around (planted : Planted h k g vs) (extension : k.Extends l) (has : l.Has x)
    (new : ¬ k.Has x) (only : ∀ w, l.Has w → k.Has w ∨ w = x) (inside : g.inside x = vs) :
    Planted h l g [x] where
  extension := planted.extension.trans extension
  reached w present := by
    rcases only w present with before | rfl
    · refine (planted.reached w before).imp_right ?_
      rintro ⟨u, mem, leads⟩
      exact ⟨x, List.mem_singleton_self x, .of_mem (inside ▸ mem) leads⟩
    · exact .inr ⟨w, List.mem_singleton_self w, .refl w⟩
  new u mem w leads handle := by
    obtain rfl := List.mem_singleton.mp mem
    obtain ⟨path, follows⟩ := leads
    cases path with
    | nil =>
      obtain rfl : u = w := Option.some.inj follows
      exact ⟨has, fun old ↦ new (planted.extension.has old)⟩
    | cons i rest =>
      obtain ⟨a, found, follows⟩ := follow_cons_eq_some_iff.mp follows
      rw [inside] at found
      obtain ⟨present, absent⟩ := planted.new a (List.mem_of_getElem? found) w ⟨rest, follows⟩ handle
      exact ⟨extension.has present, absent⟩
  sole i j a b p q w atI atJ follows also handle := by
    obtain ⟨rfl, rfl⟩ : i = 0 ∧ x = a := by simpa [List.getElem?_singleton] using atI
    obtain ⟨rfl, rfl⟩ : j = 0 ∧ x = b := by simpa [List.getElem?_singleton] using atJ
    refine ⟨rfl, ?_⟩
    cases p with
    | nil =>
      obtain rfl : x = w := Option.some.inj follows
      cases q with
      | nil => rfl
      | cons n q => exact absurd rfl (planted.ne_of_follow_cons new inside also handle)
    | cons m p =>
      cases q with
      | nil =>
        obtain rfl : x = w := Option.some.inj also
        exact absurd rfl (planted.ne_of_follow_cons new inside follows handle)
      | cons n q =>
        obtain ⟨a, atM, follows⟩ := follow_cons_eq_some_iff.mp follows
        obtain ⟨b, atN, also⟩ := follow_cons_eq_some_iff.mp also
        rw [inside] at atM atN
        obtain ⟨rfl, rfl⟩ := planted.sole m n a b p q w atM atN follows also handle
        rfl

theorem has_newList (k : Heap) (vs : List Value) :
    (k.newList vs).2.Has (.list (k.newList vs).1) := by
  simp [Heap.newList]

theorem has_newMap (k : Heap) (es : Entries Value) :
    (k.newMap es).2.Has (.map (k.newMap es).1) := by
  simp [Heap.newMap]

/-- A list that is made keeps its items, however the heap is extended. -/
theorem Extends.items_newList (later : (k.newList vs).2.Extends g) : g.items (k.newList vs).1 = vs :=
  Eq.trans (later.same _ (k.has_newList vs)) (items_newList_self vs)

/-- A map that is made keeps its entries, however the heap is extended. -/
theorem Extends.entries_newMap {es : Entries Value} (later : (k.newMap es).2.Extends g) :
    g.entries (k.newMap es).1 = es :=
  Eq.trans (later.same _ (k.has_newMap es)) (entries_newMap_self es)

theorem Planted.newList (planted : Planted h k g vs) (later : (k.newList vs).2.Extends g) :
    Planted h (k.newList vs).2 g [.list (k.newList vs).1] := by
  refine planted.around (k.extends_newList vs) (k.has_newList vs) ?_ ?_ later.items_newList
  · simp [Heap.newList]
  · intro w present
    cases w with
    | list r =>
      refine (Nat.lt_succ_iff_lt_or_eq.mp ?_).imp_right fun same ↦ congrArg Value.list (ListRef.ext same)
      simpa [Heap.newList] using present
    | map r => exact .inl present
    | null | bool b | int i | uint u | float x | string s => exact present.elim

theorem Planted.newMap {es : Entries Value} (planted : Planted h k g (es.map Prod.snd))
    (later : (k.newMap es).2.Extends g) : Planted h (k.newMap es).2 g [.map (k.newMap es).1] := by
  refine planted.around (k.extends_newMap es) (k.has_newMap es) ?_ ?_
    (congrArg (List.map Prod.snd) later.entries_newMap)
  · simp [Heap.newMap]
  · intro w present
    cases w with
    | map r =>
      refine (Nat.lt_succ_iff_lt_or_eq.mp ?_).imp_right fun same ↦ congrArg Value.map (MapRef.ext same)
      simpa [Heap.newMap] using present
    | list r => exact .inl present
    | null | bool b | int i | uint u | float x | string s => exact present.elim

mutual

/-- A tree is stored in lists and maps of its own. -/
theorem planted_alloc (g : Heap) : ∀ (d : Data) (h : Heap), (alloc d h).2.Extends g →
    Planted h (alloc d h).2 g [(alloc d h).1]
  | .null, _, _ | .bool _, _, _ | .int _, _, _ | .uint _, _, _ | .float _, _, _ | .string _, _, _ =>
    .scalar nofun
  | .list items, h, later =>
    have inner := planted_allocItems g items h ((extends_newList _ _).trans later)
    inner.newList later
  | .map entries, h, later =>
    have inner := planted_allocEntries g entries h ((extends_newMap _ _).trans later)
    inner.newMap later

theorem planted_allocItems (g : Heap) : ∀ (ds : List Data) (h : Heap), (allocItems ds h).2.Extends g →
    Planted h (allocItems ds h).2 g (allocItems ds h).1
  | [], h, _ => .nil h g
  | d :: rest, h, later =>
    have others := planted_allocItems g rest (alloc d h).2 later
    have first := planted_alloc g d h (others.extension.trans later)
    first.cons others

theorem planted_allocEntries (g : Heap) : ∀ (es : List (String × Data)) (h : Heap),
    (allocEntries es h).2.Extends g →
    Planted h (allocEntries es h).2 g ((allocEntries es h).1.map Prod.snd)
  | [], h, _ => .nil h g
  | (_, d) :: rest, h, later =>
    have others := planted_allocEntries g rest (alloc d h).2 later
    have first := planted_alloc g d h (others.extension.trans later)
    first.cons others

end

theorem extends_alloc (d : Data) (h : Heap) : h.Extends (alloc d h).2 :=
  (planted_alloc _ d h (.refl _)).extension

theorem extends_allocItems (ds : List Data) (h : Heap) : h.Extends (allocItems ds h).2 :=
  (planted_allocItems _ ds h (.refl _)).extension

theorem extends_allocEntries (es : List (String × Data)) (h : Heap) :
    h.Extends (allocEntries es h).2 :=
  (planted_allocEntries _ es h (.refl _)).extension

mutual

/-- A tree that was stored is what the value stands for, however the heap is extended. -/
theorem stands_alloc : ∀ (d : Data) (h : Heap), (alloc d h).2.Extends g → g.Stands (alloc d h).1 d
  | .null, _, _ | .bool _, _, _ | .int _, _, _ | .uint _, _, _ | .float _, _, _ | .string _, _, _ => by
    rw [Stands]
    rfl
  | .list items, h, later => by
    rw [Stands]
    refine ⟨((allocItems items h).2.newList (allocItems items h).1).1, rfl, ?_⟩
    rw [Extends.items_newList later]
    exact standsItems_alloc items h ((extends_newList _ _).trans later)
  | .map entries, h, later => by
    rw [Stands]
    refine ⟨((allocEntries entries h).2.newMap (allocEntries entries h).1).1, rfl, ?_⟩
    rw [Extends.entries_newMap later]
    exact standsEntries_alloc entries h ((extends_newMap _ _).trans later)

theorem standsItems_alloc : ∀ (ds : List Data) (h : Heap), (allocItems ds h).2.Extends g →
    g.StandsItems (allocItems ds h).1 ds
  | [], _, _ => by
    rw [StandsItems]
    rfl
  | d :: rest, h, later => by
    rw [StandsItems]
    exact ⟨_, _, rfl, stands_alloc d h ((extends_allocItems rest _).trans later),
      standsItems_alloc rest _ later⟩

theorem standsEntries_alloc : ∀ (es : List (String × Data)) (h : Heap),
    (allocEntries es h).2.Extends g → g.StandsEntries (allocEntries es h).1 es
  | [], _, _ => by
    rw [StandsEntries]
    rfl
  | (_, d) :: rest, h, later => by
    rw [StandsEntries]
    exact ⟨_, _, rfl, stands_alloc d h ((extends_allocEntries rest _).trans later),
      standsEntries_alloc rest _ later⟩

end

/-! ## Copies, item by item -/

/-- What is inside a list or a map is read in full also one step less deep. -/
theorem readAt_inside (closed : h.Closed) (acyclic : h.Acyclic) {fuel : Nat} (size : h.size = fuel + 1)
    (has : h.Has v) (mem : w ∈ h.inside v) : h.readAt fuel w = h.read w := by
  have fewer : (h.reach w).card ≤ fuel := by
    have less := card_reach_lt acyclic has mem
    have bound := card_reach_le (h := h) v
    omega
  have stands : h.Stands w (h.readAt fuel w) := stands_readAt closed acyclic (closed v w mem) fewer
  refine (read_of_stands stands ((depth_readAt_le fuel w).trans ?_)).symm
  omega

theorem exists_size_of_has (has : h.Has v) : ∃ fuel, h.size = fuel + 1 := by
  apply Nat.exists_eq_succ_of_ne_zero
  cases v with
  | list r => exact Nat.ne_of_gt (Nat.add_pos_left (Nat.zero_lt_of_lt has) _)
  | map r => exact Nat.ne_of_gt (Nat.add_pos_right _ (Nat.zero_lt_of_lt has))
  | null | bool b | int i | uint u | float x | string s => exact has.elim

/-- A list is read item by item. -/
theorem read_list (closed : h.Closed) (acyclic : h.Acyclic) {r : ListRef} (has : h.Has (.list r)) :
    h.read (.list r) = .list ((h.items r).map h.read) := by
  obtain ⟨fuel, size⟩ := exists_size_of_has has
  rw [read, size, readAt]
  congr 1
  exact List.map_congr_left fun w mem ↦ readAt_inside closed acyclic size has mem

/-- A map is read entry by entry. -/
theorem read_map (closed : h.Closed) (acyclic : h.Acyclic) {r : MapRef} (has : h.Has (.map r)) :
    h.read (.map r) = .map ((h.entries r).map fun e ↦ (e.1, h.read e.2)) := by
  obtain ⟨fuel, size⟩ := exists_size_of_has has
  rw [read, size, readAt]
  congr 1
  refine List.map_congr_left fun e mem ↦ congrArg (Prod.mk e.1) ?_
  exact readAt_inside closed acyclic size has (List.mem_map_of_mem mem)

/-- Copies of values, made one after the other. -/
def copyItems (h : Heap) : List Value → List Value × Heap
  | [] => ([], h)
  | v :: rest =>
    let (copy, h) := h.deepCopy v
    let (copies, h) := h.copyItems rest
    (copy :: copies, h)

/-- Copies of the values of a map's entries, made one after the other. -/
def copyEntries (h : Heap) : Entries Value → Entries Value × Heap
  | [] => ([], h)
  | (key, v) :: rest =>
    let (copy, h) := h.deepCopy v
    let (copies, h) := h.copyEntries rest
    ((key, copy) :: copies, h)

theorem allocItems_read (closed : h.Closed) (acyclic : h.Acyclic) (later : h.Extends k)
    (knows : ∀ v ∈ vs, h.Knows v) : allocItems (vs.map h.read) k = k.copyItems vs := by
  induction vs generalizing k with
  | nil => rfl
  | cons v rest ih =>
    have known : h.Knows v := knows v List.mem_cons_self
    have same : k.read v = h.read v :=
      (later.agrees closed).read_eq known later.size_le (stands_read closed acyclic known)
    have onward := ih (later.trans (extends_alloc (h.read v) k))
      fun w mem ↦ knows w (List.mem_cons_of_mem _ mem)
    simp only [List.map_cons, allocItems, copyItems, deepCopy, same, onward]

theorem allocEntries_read (closed : h.Closed) (acyclic : h.Acyclic) (later : h.Extends k)
    {es : Entries Value} (knows : ∀ e ∈ es, h.Knows e.2) :
    allocEntries (es.map fun e ↦ (e.1, h.read e.2)) k = k.copyEntries es := by
  induction es generalizing k with
  | nil => rfl
  | cons e rest ih =>
    have known : h.Knows e.2 := knows e List.mem_cons_self
    have same : k.read e.2 = h.read e.2 :=
      (later.agrees closed).read_eq known later.size_le (stands_read closed acyclic known)
    have onward := ih (later.trans (extends_alloc (h.read e.2) k))
      fun f mem ↦ knows f (List.mem_cons_of_mem _ mem)
    simp only [List.map_cons, allocEntries, copyEntries, deepCopy, same, onward]

/-- The copy of a list is a new list of copies of its items. -/
theorem deepCopy_list (closed : h.Closed) (acyclic : h.Acyclic) {r : ListRef} (has : h.Has (.list r)) :
    h.deepCopy (.list r) =
      let (copies, k) := h.copyItems (h.items r)
      (.list (k.newList copies).1, (k.newList copies).2) := by
  have knows : ∀ v ∈ h.items r, h.Knows v := closed (.list r)
  rw [deepCopy, read_list closed acyclic has, alloc, allocItems_read closed acyclic (.refl h) knows]

/-- The copy of a map is a new map of copies of its values, under the same keys. -/
theorem deepCopy_map (closed : h.Closed) (acyclic : h.Acyclic) {r : MapRef} (has : h.Has (.map r)) :
    h.deepCopy (.map r) =
      let (copies, k) := h.copyEntries (h.entries r)
      (.map (k.newMap copies).1, (k.newMap copies).2) := by
  have knows : ∀ e ∈ h.entries r, h.Knows e.2 := fun e mem ↦
    closed (.map r) e.2 (List.mem_map_of_mem mem)
  rw [deepCopy, read_map closed acyclic has, alloc, allocEntries_read closed acyclic (.refl h) knows]

/-! ## Copies are separate -/

/-- A value that shares no list and no map with an older heap. -/
structure Separate (h g : Heap) (copy : Value) : Prop where
  /-- the lists and maps that were there before are as they were -/
  older : h.Extends g
  /-- the value leads to the lists and maps that were not there before, and to no other -/
  fresh : ∀ w, w.isHandle → (g.Leads copy w ↔ g.Has w ∧ ¬ h.Has w)

variable {copy : Value} {changes : List Change}

theorem Separate.not_has (separate : h.Separate g copy) (leads : g.Leads copy w) : ¬ h.Has w :=
  fun has ↦ ((separate.fresh w (isHandle_of_has has)).mp leads).2 has

/-- What is inside something that was not there before was not there before either. -/
theorem Separate.inward (separate : h.Separate g copy) (absent : ¬ h.Has v) (mem : w ∈ g.inside v) :
    ¬ h.Has w := by
  have present : g.Has v := has_of_mem_inside mem
  have reached : g.Leads copy v := (separate.fresh v (isHandle_of_has present)).mpr ⟨present, absent⟩
  exact separate.not_has (reached.trans (.of_mem mem (.refl w)))

/-- Changes through handles that a separate value led to, or that came up later, touch nothing older. -/
theorem Separate.extends_changed (separate : h.Separate g copy)
    (targets : ∀ c ∈ changes, ∀ w, c.target? = some w → g.Leads copy w ∨ ¬ g.Has w) :
    h.Extends (g.changed changes) where
  toGrows := separate.older.toGrows.trans (g.grows_changed changes)
  same w has := by
    have still : g.Has w := separate.older.has has
    apply (separate.older.same w has).trans
    apply sameAt_changed still
    intro c mem target
    rcases targets c mem w target with leads | absent
    · exact separate.not_has leads has
    · exact absent still

/-- Changes through older handles, or through handles that came up later, touch nothing that a separate
value leads to. -/
theorem Separate.agrees_changed (separate : h.Separate g copy)
    (targets : ∀ c ∈ changes, ∀ w, c.target? = some w → h.Has w ∨ ¬ g.Has w) :
    g.Agrees (g.changed changes) (g.Leads copy) where
  inward v reached w mem := reached.trans (.of_mem mem (.refl w))
  same w leads := by
    by_cases handle : w.isHandle
    · have has : g.Has w := ((separate.fresh w handle).mp leads).1
      apply sameAt_changed has
      intro c mem target
      rcases targets c mem w target with old | absent
      · exact separate.not_has leads old
      · exact absent has
    · exact .of_scalar handle

/-- A value is in one heap as it is in another: it leads to the same lists and maps, they hold the same, and
it is read as the same tree. -/
structure Intact (h g : Heap) (v : Value) : Prop where
  /-- every path leads to the same -/
  follow : ∀ path, g.follow v path = h.follow v path
  /-- every list and map that the value leads to holds the same -/
  same : ∀ w, h.Leads v w → h.SameAt g w
  /-- the tree is the same -/
  read : g.read v = h.read v

theorem Agrees.intact {P : Value → Prop} (agrees : h.Agrees g P) (part : P v) (grows : h.Grows g)
    (stands : h.Stands v (h.read v)) : h.Intact g v where
  follow := agrees.follow_eq part
  same w leads := agrees.same w (leads.induction agrees.inward part)
  read := agrees.read_eq part grows.size_le stands

/-- What `copy` is to a value `v` of a heap `h`, where the heap is `g` once the copy is made. -/
structure IsCopy (h g : Heap) (v copy : Value) : Prop extends Separate h g copy where
  /-- both stand for the tree that the value was read as -/
  stands : h.Stands v (h.read v) ∧ g.Stands copy (h.read v)
  /-- both are read as that tree -/
  read : g.read v = h.read v ∧ g.read copy = h.read v
  /-- one path only leads from the copy to each of its lists and maps -/
  sole : ∀ p q w, g.follow copy p = some w → g.follow copy q = some w → w.isHandle → p = q
  /-- changes through handles that the copy led to, or that came up later, leave all that was known before
  as it was -/
  outward : ∀ changes : List Change,
    (∀ c ∈ changes, ∀ w, c.target? = some w → g.Leads copy w ∨ ¬ g.Has w) →
      ∀ w, h.Knows w → h.Intact (g.changed changes) w
  /-- changes that store no older handle do not make the copy lead to one -/
  apart : ∀ changes : List Change, (∀ c ∈ changes, ∀ x ∈ c.stored, ¬ h.Has x) →
    ∀ w, (g.changed changes).Leads copy w → ¬ h.Has w
  /-- changes through older handles, or through handles that came up later, leave the copy as it was -/
  inward : ∀ changes : List Change,
    (∀ c ∈ changes, ∀ w, c.target? = some w → h.Has w ∨ ¬ g.Has w) →
      g.Intact (g.changed changes) copy

/-- A tree that is stored leads to new lists and maps, and to all of them. -/
theorem separate_alloc (d : Data) (h : Heap) : h.Separate (alloc d h).2 (alloc d h).1 where
  older := extends_alloc d h
  fresh w handle := by
    have planted := planted_alloc (alloc d h).2 d h (.refl _)
    constructor
    · intro leads
      exact planted.new _ List.mem_cons_self w leads handle
    · rintro ⟨has, absent⟩
      obtain ⟨u, mem, leads⟩ := (planted.reached w has).resolve_left absent
      rwa [List.mem_singleton.mp mem] at leads

/-- In a heap without reference cycles a deep copy is an independent value that stands for the same tree. -/
theorem deepCopy_isCopy {h : Heap} {v : Value} (closed : h.Closed) (acyclic : h.Acyclic)
    (knows : h.Knows v) : h.IsCopy (h.deepCopy v).2 v (h.deepCopy v).1 := by
  have separate : h.Separate (h.deepCopy v).2 (h.deepCopy v).1 := separate_alloc (h.read v) h
  have intact : ∀ {g : Heap} {w : Value}, h.Extends g → h.Knows w → h.Intact g w :=
    fun {g w} later known ↦
      (later.agrees closed).intact known later.toGrows (stands_read closed acyclic known)
  have stands : (h.deepCopy v).2.Stands (h.deepCopy v).1 (h.read v) :=
    stands_alloc (h.read v) h (.refl _)
  have read : (h.deepCopy v).2.read (h.deepCopy v).1 = h.read v :=
    read_of_stands stands ((depth_readAt_le h.size v).trans separate.older.size_le)
  refine ⟨separate, ⟨stands_read closed acyclic knows, stands⟩, ⟨?_, read⟩, ?_, ?_, ?_, ?_⟩
  · exact (intact separate.older knows).read
  · intro p q w first second handle
    have planted := planted_alloc (h.deepCopy v).2 (h.read v) h (.refl _)
    exact (planted.sole 0 0 _ _ p q w rfl rfl first second handle).2
  · intro changes targets w known
    exact intact (separate.extends_changed targets) known
  · intro changes stores w leads
    exact leads_changed (P := fun w ↦ ¬ h.Has w) nofun (fun u absent x ↦ separate.inward absent)
      stores (separate.not_has (.refl _)) leads
  · intro changes targets
    apply (separate.agrees_changed targets).intact (.refl _) (grows_changed _ changes)
    rw [read]
    exact stands

/-- One list under two keys of a map. -/
def sharing : Heap := ⟨#[[.int 1]], #[[("a", .list ⟨0⟩), ("b", .list ⟨0⟩)]]⟩

theorem inside_sharing {v w : Value} (mem : w ∈ sharing.inside v) :
    v = .map ⟨0⟩ ∧ w = .list ⟨0⟩ ∨ v = .list ⟨0⟩ ∧ w = .int 1 := by
  have has : sharing.Has v := has_of_mem_inside mem
  cases v with
  | list r =>
    obtain rfl : r = ⟨0⟩ := ListRef.ext (Nat.lt_one_iff.mp has)
    exact .inr ⟨rfl, List.mem_singleton.mp mem⟩
  | map r =>
    obtain rfl : r = ⟨0⟩ := MapRef.ext (Nat.lt_one_iff.mp has)
    refine .inl ⟨rfl, ?_⟩
    simpa [sharing, entries] using mem
  | null | bool b | int i | uint u | float x | string s => exact has.elim

theorem deepCopy_isCopy_sharing :
    sharing.Closed ∧ sharing.Acyclic ∧ sharing.Knows (.map ⟨0⟩) ∧
      (sharing.deepCopy (.map ⟨0⟩)).1 = .map ⟨1⟩ ∧
      sharing.IsCopy (sharing.deepCopy (.map ⟨0⟩)).2 (.map ⟨0⟩) (sharing.deepCopy (.map ⟨0⟩)).1 := by
  have closed : sharing.Closed := by
    intro v w mem handle
    rcases inside_sharing mem with ⟨-, rfl⟩ | ⟨-, rfl⟩
    · decide
    · cases handle
  have acyclic : sharing.Acyclic := by
    apply acyclic_of_rank fun
      | .map _ => 2
      | .list _ => 1
      | _ => 0
    intro v w mem
    rcases inside_sharing mem with ⟨rfl, rfl⟩ | ⟨rfl, rfl⟩ <;> decide
  have knows : sharing.Knows (.map ⟨0⟩) := fun _ ↦ by decide
  exact ⟨closed, acyclic, knows, by decide, deepCopy_isCopy closed acyclic knows⟩

end Heap

end Troupe
