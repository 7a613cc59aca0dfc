import Mathlib.Data.Finset.Card
import Mathlib.Data.Finset.Range
import Mathlib.Data.Finset.Union
import Troupe.Proofs.Data
import Troupe.Value.Heap

/-!
# What a value leads to

A value that is a handle leads to the values inside its list or map, and through them further inwards.  A
path says on the way which position to enter next, in a map as in a list, so two paths to one list are two
places where it is held.

In a heap where no handle dangles (`Heap.Closed`) and no value is inside itself (`Heap.Acyclic`), the lists
and maps that a value leads to become fewer with every step inwards.  So `Heap.read` goes deep enough: what
it answers is the whole tree (`Heap.stands_read`).  `Heap.Stands` says what that means without a bound on
the depth.

What a value leads to decides all that can be seen of it.  Where two heaps agree on that part, its tree is
the same in both (`Heap.Stands.congr`), and so is everything that a path leads to.
-/

namespace Troupe

namespace Value

/-- The value is a handle on a list or a map. -/
def isHandle : Value → Bool
  | .list _ | .map _ => true
  | _ => false

end Value

namespace Heap

variable {h g : Heap} {v w : Value}

/-! ## Paths -/

/-- The values directly inside a value: the items of a list, or the values of a map in key order. -/
def inside (h : Heap) : Value → List Value
  | .list r => h.items r
  | .map r => (h.entries r).map Prod.snd
  | _ => []

/-- What a path of positions leads to. -/
def follow (h : Heap) : Value → List Nat → Option Value
  | v, [] => some v
  | v, i :: path => (h.inside v)[i]?.bind fun w ↦ h.follow w path

/-- A value leads to another. -/
def Leads (h : Heap) (v w : Value) : Prop := ∃ path, h.follow v path = some w

/-- The heap has the list or the map of a handle. -/
def Has (h : Heap) : Value → Prop
  | .list r => r.index < h.lists.size
  | .map r => r.index < h.maps.size
  | _ => False

/-- The value is no handle, or the heap has its list or map. -/
def Knows (h : Heap) (v : Value) : Prop := v.isHandle → h.Has v

/-- No handle dangles: the heap knows all values inside its lists and maps. -/
def Closed (h : Heap) : Prop := ∀ v, ∀ w ∈ h.inside v, h.Knows w

/-- There are no reference cycles: no value is inside itself. -/
def Acyclic (h : Heap) : Prop := ∀ v path, h.follow v path = some v → path = []

instance : DecidablePred h.Has
  | .list r => inferInstanceAs (Decidable (r.index < h.lists.size))
  | .map r => inferInstanceAs (Decidable (r.index < h.maps.size))
  | .null | .bool _ | .int _ | .uint _ | .float _ | .string _ => inferInstanceAs (Decidable False)

@[simp] theorem inside_list (r : ListRef) : h.inside (.list r) = h.items r := rfl

@[simp] theorem inside_map (r : MapRef) : h.inside (.map r) = (h.entries r).map Prod.snd := rfl

@[simp] theorem has_list (r : ListRef) : h.Has (.list r) ↔ r.index < h.lists.size := Iff.rfl

@[simp] theorem has_map (r : MapRef) : h.Has (.map r) ↔ r.index < h.maps.size := Iff.rfl

@[simp] theorem follow_nil (v : Value) : h.follow v [] = some v := by rw [follow]

theorem follow_cons (v : Value) (i : Nat) (path : List Nat) :
    h.follow v (i :: path) = (h.inside v)[i]?.bind fun w ↦ h.follow w path := by rw [follow]

theorem isHandle_of_has (has : h.Has v) : v.isHandle = true := by
  cases v with
  | list r | map r => rfl
  | null | bool b | int i | uint u | float x | string s => exact has.elim

theorem inside_eq_nil_of_not_has (absent : ¬ h.Has v) : h.inside v = [] := by
  cases v with
  | list r => simp [items, Nat.not_lt.mp absent]
  | map r => simp [entries, Nat.not_lt.mp absent]
  | null | bool b | int i | uint u | float x | string s => rfl

theorem has_of_mem_inside (mem : w ∈ h.inside v) : h.Has v := by
  by_contra absent
  rw [inside_eq_nil_of_not_has absent] at mem
  exact List.not_mem_nil mem

theorem isHandle_of_mem_inside (mem : w ∈ h.inside v) : v.isHandle = true := by
  cases v with
  | list r | map r => rfl
  | null | bool b | int i | uint u | float x | string s => simp [inside] at mem

/-- A path that is not empty goes on from a value inside the first one. -/
theorem follow_cons_eq_some_iff {i : Nat} {path : List Nat} :
    h.follow v (i :: path) = some w ↔ ∃ u, (h.inside v)[i]? = some u ∧ h.follow u path = some w := by
  rw [follow_cons, Option.bind_eq_some_iff]

theorem Leads.refl (v : Value) : h.Leads v v := ⟨[], follow_nil v⟩

theorem Leads.of_mem {u : Value} (mem : w ∈ h.inside v) (leads : h.Leads w u) : h.Leads v u := by
  obtain ⟨i, found⟩ := List.mem_iff_getElem?.mp mem
  obtain ⟨path, follows⟩ := leads
  exact ⟨i :: path, follow_cons_eq_some_iff.mpr ⟨w, found, follows⟩⟩

theorem Leads.trans {u : Value} (first : h.Leads v u) (second : h.Leads u w) : h.Leads v w := by
  obtain ⟨path, follows⟩ := first
  induction path generalizing v with
  | nil =>
    obtain rfl : v = u := Option.some.inj follows
    exact second
  | cons i rest ih =>
    obtain ⟨x, found, follows⟩ := follow_cons_eq_some_iff.mp follows
    exact .of_mem (List.mem_of_getElem? found) (ih follows)

/-- What holds of a value and of all inside those of which it holds, holds of all that it leads to. -/
theorem Leads.induction {P : Value → Prop} (inward : ∀ v, P v → ∀ w ∈ h.inside v, P w)
    (leads : h.Leads v w) (start : P v) : P w := by
  obtain ⟨path, follows⟩ := leads
  induction path generalizing v with
  | nil =>
    obtain rfl : v = w := Option.some.inj follows
    exact start
  | cons i rest ih =>
    obtain ⟨u, found, follows⟩ := follow_cons_eq_some_iff.mp follows
    exact ih (inward v start u (List.mem_of_getElem? found)) follows

/-- A heap has no reference cycles if some number becomes smaller with every step inwards. -/
theorem acyclic_of_rank (rank : Value → Nat) (smaller : ∀ v, ∀ w ∈ h.inside v, rank w < rank v) :
    h.Acyclic := by
  have below : ∀ {v w : Value} {path : List Nat}, h.follow v path = some w →
      rank w + path.length ≤ rank v := by
    intro v w path
    induction path generalizing v with
    | nil =>
      intro follows
      cases follows
      exact Nat.le_refl _
    | cons i rest ih =>
      intro follows
      obtain ⟨u, found, follows⟩ := follow_cons_eq_some_iff.mp follows
      have inner := ih follows
      have step := smaller v u (List.mem_of_getElem? found)
      rw [List.length_cons]
      omega
  intro v path follows
  have bound := below follows
  exact List.eq_nil_of_length_eq_zero (by omega)

/-! ## How many lists and maps a value leads to -/

/-- The lists and maps of a heap. -/
def places (h : Heap) : Finset Value :=
  (Finset.range h.lists.size).image (fun i ↦ .list ⟨i⟩) ∪
    (Finset.range h.maps.size).image (fun i ↦ .map ⟨i⟩)

theorem mem_places : v ∈ h.places ↔ h.Has v := by
  cases v with
  | list r =>
    obtain ⟨i⟩ := r
    simp [places]
  | map r =>
    obtain ⟨i⟩ := r
    simp [places]
  | null | bool b | int i | uint u | float x | string s => simp [places, Has]

theorem card_places_le : h.places.card ≤ h.size := by
  have lists := Finset.card_image_le (s := Finset.range h.lists.size) (f := fun i ↦ Value.list ⟨i⟩)
  have maps := Finset.card_image_le (s := Finset.range h.maps.size) (f := fun i ↦ Value.map ⟨i⟩)
  rw [Finset.card_range] at lists maps
  exact (Finset.card_union_le _ _).trans (Nat.add_le_add lists maps)

open Classical in
/-- The lists and maps that a value leads to, its own included. -/
noncomputable def reach (h : Heap) (v : Value) : Finset Value := h.places.filter fun w ↦ h.Leads v w

theorem mem_reach : w ∈ h.reach v ↔ h.Has w ∧ h.Leads v w := by
  simp [reach, mem_places]

theorem card_reach_le (v : Value) : (h.reach v).card ≤ h.size := by
  classical
  exact (Finset.card_filter_le _ _).trans card_places_le

/-- A handle leads to its own list or map. -/
theorem not_isHandle_of_card_reach (knows : h.Knows v) (none : (h.reach v).card = 0) : ¬ v.isHandle := by
  intro handle
  have self : v ∈ h.reach v := mem_reach.mpr ⟨knows handle, .refl v⟩
  rw [Finset.card_eq_zero.mp none] at self
  exact Finset.notMem_empty v self

/-- Every step inwards leads to fewer lists and maps: the one that was left is no longer reached. -/
theorem card_reach_lt (acyclic : h.Acyclic) (has : h.Has v) (mem : w ∈ h.inside v) :
    (h.reach w).card < (h.reach v).card := by
  apply Finset.card_lt_card
  rw [Finset.ssubset_iff_of_subset]
  · refine ⟨v, mem_reach.mpr ⟨has, .refl v⟩, ?_⟩
    intro back
    obtain ⟨path, follows⟩ := (mem_reach.mp back).2
    obtain ⟨i, found⟩ := List.mem_iff_getElem?.mp mem
    cases acyclic v (i :: path) (follow_cons_eq_some_iff.mpr ⟨w, found, follows⟩)
  · intro u reached
    obtain ⟨has, leads⟩ := mem_reach.mp reached
    exact mem_reach.mpr ⟨has, .of_mem mem leads⟩

/-! ## Trees -/

mutual

/-- A value stands for a tree, however deep. -/
def Stands (h : Heap) : Value → Data → Prop
  | v, .null => v = .null
  | v, .bool b => v = .bool b
  | v, .int i => v = .int i
  | v, .uint u => v = .uint u
  | v, .float x => v = .float x
  | v, .string s => v = .string s
  | v, .list items => ∃ r, v = .list r ∧ StandsItems h (h.items r) items
  | v, .map entries => ∃ r, v = .map r ∧ StandsEntries h (h.entries r) entries

/-- The values of a list stand for trees, one by one. -/
def StandsItems (h : Heap) : List Value → List Data → Prop
  | vs, [] => vs = []
  | vs, d :: rest => ∃ v ws, vs = v :: ws ∧ Stands h v d ∧ StandsItems h ws rest

/-- The values of a map stand for trees, one by one and under the same keys. -/
def StandsEntries (h : Heap) : Entries Value → List (String × Data) → Prop
  | es, [] => es = []
  | es, (k, d) :: rest => ∃ v fs, es = (k, v) :: fs ∧ Stands h v d ∧ StandsEntries h fs rest

end

theorem standsItems_map {vs : List Value} {f : Value → Data} (each : ∀ v ∈ vs, h.Stands v (f v)) :
    h.StandsItems vs (vs.map f) := by
  induction vs with
  | nil => rw [List.map_nil, StandsItems]
  | cons v rest ih =>
    rw [List.map_cons, StandsItems]
    exact ⟨v, rest, rfl, each v List.mem_cons_self, ih fun w mem ↦ each w (List.mem_cons_of_mem _ mem)⟩

theorem standsEntries_map {es : Entries Value} {f : Value → Data}
    (each : ∀ e ∈ es, h.Stands e.2 (f e.2)) :
    h.StandsEntries es (es.map fun e ↦ (e.1, f e.2)) := by
  induction es with
  | nil => rw [List.map_nil, StandsEntries]
  | cons e rest ih =>
    rw [List.map_cons, StandsEntries]
    exact ⟨e.2, rest, rfl, each e List.mem_cons_self, ih fun w mem ↦ each w (List.mem_cons_of_mem _ mem)⟩

/-- Reading goes deep enough if it may go through as many lists and maps as the value leads to. -/
theorem stands_readAt (closed : h.Closed) (acyclic : h.Acyclic) {fuel : Nat} {v : Value}
    (knows : h.Knows v) (enough : (h.reach v).card ≤ fuel) : h.Stands v (h.readAt fuel v) := by
  induction fuel generalizing v with
  | zero =>
    have scalar := not_isHandle_of_card_reach knows (Nat.le_zero.mp enough)
    cases v with
    | list r | map r => exact absurd rfl scalar
    | null | bool b | int i | uint u | float x | string s => simp [readAt, Stands]
  | succ fuel ih =>
    have inner : ∀ w ∈ h.inside v, h.Stands w (h.readAt fuel w) := by
      intro w mem
      have less := card_reach_lt acyclic (knows (isHandle_of_mem_inside mem)) mem
      exact ih (closed v w mem) (by omega)
    cases v with
    | list r =>
      rw [readAt, Stands]
      exact ⟨r, rfl, standsItems_map inner⟩
    | map r =>
      rw [readAt, Stands]
      exact ⟨r, rfl, standsEntries_map fun e mem ↦ inner e.2 (List.mem_map_of_mem mem)⟩
    | null | bool b | int i | uint u | float x | string s => simp [readAt, Stands]

/-- In a heap without dangling handles and reference cycles a value is read in full. -/
theorem stands_read (closed : h.Closed) (acyclic : h.Acyclic) (knows : h.Knows v) :
    h.Stands v (h.read v) :=
  stands_readAt closed acyclic knows (card_reach_le v)

/-- What is read as far as some depth is no deeper. -/
theorem depth_readAt_le (fuel : Nat) (v : Value) : (h.readAt fuel v).depth ≤ fuel := by
  induction fuel generalizing v with
  | zero => cases v <;> simp [readAt, Data.depth]
  | succ fuel ih =>
    cases v with
    | list r =>
      rw [readAt, Data.depth, Nat.add_comm 1]
      apply Nat.succ_le_succ
      apply Data.depthItems_le
      intro d mem
      obtain ⟨w, -, rfl⟩ := List.mem_map.mp mem
      exact ih w
    | map r =>
      rw [readAt, Data.depth, Nat.add_comm 1]
      apply Nat.succ_le_succ
      apply Data.depthEntries_le
      intro d mem
      obtain ⟨e, -, rfl⟩ := List.mem_map.mp mem
      exact ih e.2
    | null | bool b | int i | uint u | float x | string s => simp [readAt, Data.depth]

mutual

/-- A value that stands for a tree is read as that tree, if reading goes deep enough. -/
theorem readAt_of_stands {fuel : Nat} {v : Value} :
    ∀ {d : Data}, h.Stands v d → d.depth ≤ fuel → h.readAt fuel v = d
  | .null, stands, _ | .bool b, stands, _ | .int i, stands, _ | .uint u, stands, _
  | .float x, stands, _ | .string s, stands, _ => by
    rw [Stands] at stands
    rw [stands]
    cases fuel <;> rfl
  | .list items, stands, enough => by
    rw [Stands] at stands
    obtain ⟨r, rfl, stands⟩ := stands
    rw [Data.depth] at enough
    obtain ⟨fuel, rfl⟩ := Nat.exists_eq_add_of_le enough
    rw [Nat.add_assoc, Nat.add_comm 1, readAt, readItems_of_stands stands (Nat.le_add_right _ _)]
  | .map entries, stands, enough => by
    rw [Stands] at stands
    obtain ⟨r, rfl, stands⟩ := stands
    rw [Data.depth] at enough
    obtain ⟨fuel, rfl⟩ := Nat.exists_eq_add_of_le enough
    rw [Nat.add_assoc, Nat.add_comm 1, readAt, readEntries_of_stands stands (Nat.le_add_right _ _)]

theorem readItems_of_stands {fuel : Nat} {vs : List Value} :
    ∀ {ds : List Data}, h.StandsItems vs ds → Data.depthItems ds ≤ fuel → vs.map (h.readAt fuel) = ds
  | [], stands, _ => by
    rw [StandsItems] at stands
    rw [stands, List.map_nil]
  | d :: rest, stands, enough => by
    rw [StandsItems] at stands
    obtain ⟨v, ws, rfl, first, others⟩ := stands
    rw [Data.depthItems, max_le_iff] at enough
    rw [List.map_cons, readAt_of_stands first enough.1, readItems_of_stands others enough.2]

theorem readEntries_of_stands {fuel : Nat} {es : Entries Value} :
    ∀ {ds : List (String × Data)}, h.StandsEntries es ds → Data.depthEntries ds ≤ fuel →
      es.map (fun e ↦ (e.1, h.readAt fuel e.2)) = ds
  | [], stands, _ => by
    rw [StandsEntries] at stands
    rw [stands, List.map_nil]
  | (k, d) :: rest, stands, enough => by
    rw [StandsEntries] at stands
    obtain ⟨v, fs, rfl, first, others⟩ := stands
    rw [Data.depthEntries, max_le_iff] at enough
    rw [List.map_cons, readAt_of_stands first enough.1, readEntries_of_stands others enough.2]

end

/-! ## Heaps that agree on a part -/

/-- Two heaps hold the same in the list or map of a handle. -/
def SameAt (h g : Heap) : Value → Prop
  | .list r => g.items r = h.items r
  | .map r => g.entries r = h.entries r
  | _ => True

theorem SameAt.refl (h : Heap) (v : Value) : h.SameAt h v := by
  cases v <;> simp [SameAt]

theorem SameAt.of_scalar (scalar : ¬ v.isHandle) : h.SameAt g v := by
  cases v with
  | list r | map r => exact absurd rfl scalar
  | null | bool b | int i | uint u | float x | string s => trivial

theorem SameAt.trans {k : Heap} (first : h.SameAt g v) (second : g.SameAt k v) : h.SameAt k v := by
  cases v with
  | list r | map r => exact Eq.trans second first
  | null | bool b | int i | uint u | float x | string s => trivial

theorem SameAt.inside_eq (same : h.SameAt g v) : g.inside v = h.inside v := by
  cases v with
  | list r => exact same
  | map r => exact congrArg (List.map Prod.snd) same
  | null | bool b | int i | uint u | float x | string s => rfl

/-- A part of a heap that is closed inwards, and another heap that holds the same there. -/
structure Agrees (h g : Heap) (P : Value → Prop) : Prop where
  /-- what is inside a value of the part belongs to the part -/
  inward : ∀ v, P v → ∀ w ∈ h.inside v, P w
  /-- both heaps hold the same in every list and map of the part -/
  same : ∀ v, P v → h.SameAt g v

/-- A path through a part on which two heaps agree leads to the same value in both. -/
theorem Agrees.follow_eq {P : Value → Prop} (agrees : h.Agrees g P) {v : Value} (part : P v)
    (path : List Nat) : g.follow v path = h.follow v path := by
  induction path generalizing v with
  | nil => rfl
  | cons i rest ih =>
    rw [follow_cons, follow_cons, (agrees.same v part).inside_eq]
    cases found : (h.inside v)[i]? with
    | none => rfl
    | some w => exact ih (agrees.inward v part w (List.mem_of_getElem? found))

mutual

/-- A value stands for the same tree in two heaps that agree on all that it leads to. -/
theorem Stands.congr {P : Value → Prop} (agrees : h.Agrees g P) {v : Value} (part : P v) :
    ∀ {d : Data}, h.Stands v d → g.Stands v d
  | .null, stands | .bool b, stands | .int i, stands | .uint u, stands | .float x, stands
  | .string s, stands => by
    rw [Stands] at stands ⊢
    exact stands
  | .list items, stands => by
    rw [Stands] at stands ⊢
    obtain ⟨r, rfl, stands⟩ := stands
    have same : g.items r = h.items r := agrees.same _ part
    refine ⟨r, rfl, ?_⟩
    rw [same]
    exact StandsItems.congr agrees (agrees.inward _ part) stands
  | .map entries, stands => by
    rw [Stands] at stands ⊢
    obtain ⟨r, rfl, stands⟩ := stands
    have same : g.entries r = h.entries r := agrees.same _ part
    have parts : ∀ e ∈ h.entries r, P e.2 := fun e mem ↦ agrees.inward _ part _ (List.mem_map_of_mem mem)
    refine ⟨r, rfl, ?_⟩
    rw [same]
    exact StandsEntries.congr agrees parts stands

theorem StandsItems.congr {P : Value → Prop} (agrees : h.Agrees g P) {vs : List Value}
    (parts : ∀ v ∈ vs, P v) : ∀ {ds : List Data}, h.StandsItems vs ds → g.StandsItems vs ds
  | [], stands => by
    rw [StandsItems] at stands ⊢
    exact stands
  | d :: rest, stands => by
    rw [StandsItems] at stands ⊢
    obtain ⟨v, ws, rfl, first, others⟩ := stands
    exact ⟨v, ws, rfl, Stands.congr agrees (parts v List.mem_cons_self) first,
      StandsItems.congr agrees (fun w mem ↦ parts w (List.mem_cons_of_mem _ mem)) others⟩

theorem StandsEntries.congr {P : Value → Prop} (agrees : h.Agrees g P) {es : Entries Value}
    (parts : ∀ e ∈ es, P e.2) :
    ∀ {ds : List (String × Data)}, h.StandsEntries es ds → g.StandsEntries es ds
  | [], stands => by
    rw [StandsEntries] at stands ⊢
    exact stands
  | (k, d) :: rest, stands => by
    rw [StandsEntries] at stands ⊢
    obtain ⟨v, fs, rfl, first, others⟩ := stands
    exact ⟨v, fs, rfl, Stands.congr agrees (parts (k, v) List.mem_cons_self) first,
      StandsEntries.congr agrees (fun e mem ↦ parts e (List.mem_cons_of_mem _ mem)) others⟩

end

/-- A value that stands for a tree no deeper than the size of the heap is read as that tree. -/
theorem read_of_stands {d : Data} (stands : h.Stands v d) (shallow : d.depth ≤ h.size) :
    h.read v = d :=
  readAt_of_stands stands shallow

/-- A value that is read in full is read as the same tree in every heap that is no smaller and agrees on
all that it leads to. -/
theorem Agrees.read_eq {P : Value → Prop} (agrees : h.Agrees g P) (part : P v) (larger : h.size ≤ g.size)
    (stands : h.Stands v (h.read v)) : g.read v = h.read v :=
  read_of_stands (stands.congr agrees part) ((depth_readAt_le h.size v).trans larger)

end Heap

end Troupe
