import Mathlib.Data.List.Basic
import Mathlib.Tactic.IntervalCases
import Troupe.Proofs.Value.Copy

/-!
# Equality and storage

Equality of values looks at contents, but a list or a map equals itself without a look at them.  That is the
same wherever every tree equals itself, and a tree does exactly if there is no NaN in it
(`Data.equals_self`, `Data.everywhere_of_equals`).  So equality and contents differ only by a list or map
with a NaN in it that two values share in the same place (`Heap.equals_iff_equal`), and never between a copy
and what was there before it (`Heap.equal_iff_contents`).

The fuel of `Heap.equalAt` counts the containers on the way down, and the lists and maps that a value leads
to become fewer with every step inwards, so it lasts (`Heap.equals_iff_equalAt`).
-/

namespace Troupe

/-! ## Trees that equal themselves -/

namespace Data

/-- The tree is no floating-point number, or one that is a number. -/
def NotNaN : Data → Prop
  | .float x => x.isNaN = false
  | _ => True

instance : DecidablePred NotNaN
  | .float x => inferInstanceAs (Decidable (x.isNaN = false))
  | .null | .bool _ | .int _ | .uint _ | .string _ | .list _ | .map _ => inferInstanceAs (Decidable True)

theorem notNaN_of_equals {x y : Binary64} (same : x.equals y = true) : x.isNaN = false := by
  by_contra nan
  rw [Binary64.not_equals_of_isNaN y (Bool.eq_true_of_not_eq_false nan)] at same
  cases same

mutual

/-- A tree that equals any tree has no NaN in it. -/
theorem everywhere_of_equals : (d : Data) → {e : Data} → d.equals e = true → d.Everywhere NotNaN
  | .null, _, _ | .bool _, _, _ | .int _, _, _ | .uint _, _, _ | .string _, _, _ => trivial
  | .float x, e, same => by
    cases e with
    | float y => exact notNaN_of_equals same
    | null | bool b | int i | uint u | string s | list es | map es => simp [equals] at same
  | .list ds, e, same => by
    cases e with
    | list es => exact ⟨trivial, everywhere_of_equalsItems ds same⟩
    | null | bool b | int i | uint u | float x | string s | map es => simp [equals] at same
  | .map ds, e, same => by
    cases e with
    | map es => exact ⟨trivial, everywhere_of_equalsEntries ds same⟩
    | null | bool b | int i | uint u | float x | string s | list es => simp [equals] at same

theorem everywhere_of_equalsItems :
    (ds : List Data) → {es : List Data} → equalsItems ds es = true → EverywhereItems NotNaN ds
  | [], _, _ => trivial
  | d :: ds, es, same => by
    cases es with
    | nil => simp [equalsItems] at same
    | cons e es =>
      obtain ⟨first, others⟩ := Bool.and_eq_true_iff.mp same
      exact ⟨everywhere_of_equals d first, everywhere_of_equalsItems ds others⟩

theorem everywhere_of_equalsEntries : (ds : List (String × Data)) → {es : List (String × Data)} →
    equalsEntries ds es = true → EverywhereEntries NotNaN ds
  | [], _, _ => trivial
  | (k, d) :: ds, es, same => by
    cases es with
    | nil => simp [equalsEntries] at same
    | cons e es =>
      obtain ⟨entry, others⟩ := Bool.and_eq_true_iff.mp same
      obtain ⟨-, first⟩ := Bool.and_eq_true_iff.mp entry
      exact ⟨everywhere_of_equals d first, everywhere_of_equalsEntries ds others⟩

end

mutual

/-- A tree without NaN equals itself. -/
theorem equals_self : (d : Data) → d.Everywhere NotNaN → d.equals d = true
  | .null, _ => rfl
  | .bool _, _ | .int _, _ | .uint _, _ | .string _, _ => by simp [equals]
  | .float x, number => by
    rw [equals, Binary64.equals_self, show x.isNaN = false from number, Bool.not_false]
  | .list ds, numbers => by rw [equals, equalsItems_self ds numbers.2]
  | .map ds, numbers => by rw [equals, equalsEntries_self ds numbers.2]

theorem equalsItems_self : (ds : List Data) → EverywhereItems NotNaN ds → equalsItems ds ds = true
  | [], _ => rfl
  | d :: ds, numbers => by
    rw [equalsItems, equals_self d numbers.1, equalsItems_self ds numbers.2, Bool.true_and]

theorem equalsEntries_self :
    (ds : List (String × Data)) → EverywhereEntries NotNaN ds → equalsEntries ds ds = true
  | [], _ => rfl
  | (k, d) :: ds, numbers => by
    rw [equalsEntries, equals_self d numbers.1, equalsEntries_self ds numbers.2, beq_self_eq_true,
      Bool.true_and, Bool.true_and]

end

mutual

/-- Trees without floating-point numbers that are equal are the same. -/
theorem eq_of_equals : (d : Data) → {e : Data} → d.Everywhere NotFloat → d.equals e = true → d = e
  | .null, e, _, same | .bool _, e, _, same | .int _, e, _, same | .uint _, e, _, same
  | .string _, e, _, same => by
    cases e <;> simp [equals] at same ⊢ <;> exact same
  | .float _, _, exact, _ => exact.elim
  | .list ds, e, exact, same => by
    cases e with
    | list es => exact congrArg list (eq_of_equalsItems ds exact.2 same)
    | null | bool b | int i | uint u | float x | string s | map es => simp [equals] at same
  | .map ds, e, exact, same => by
    cases e with
    | map es => exact congrArg map (eq_of_equalsEntries ds exact.2 same)
    | null | bool b | int i | uint u | float x | string s | list es => simp [equals] at same

theorem eq_of_equalsItems : (ds : List Data) → {es : List Data} → EverywhereItems NotFloat ds →
    equalsItems ds es = true → ds = es
  | [], es, _, same => by
    cases es with
    | nil => rfl
    | cons e es => simp [equalsItems] at same
  | d :: ds, es, exact, same => by
    cases es with
    | nil => simp [equalsItems] at same
    | cons e es =>
      obtain ⟨first, others⟩ := Bool.and_eq_true_iff.mp same
      rw [eq_of_equals d exact.1 first, eq_of_equalsItems ds exact.2 others]

theorem eq_of_equalsEntries : (ds : List (String × Data)) → {es : List (String × Data)} →
    EverywhereEntries NotFloat ds → equalsEntries ds es = true → ds = es
  | [], es, _, same => by
    cases es with
    | nil => rfl
    | cons e es => simp [equalsEntries] at same
  | (k, d) :: ds, es, exact, same => by
    cases es with
    | nil => simp [equalsEntries] at same
    | cons e es =>
      obtain ⟨entry, others⟩ := Bool.and_eq_true_iff.mp same
      obtain ⟨key, first⟩ := Bool.and_eq_true_iff.mp entry
      obtain ⟨l, e⟩ := e
      obtain rfl : k = l := beq_iff_eq.mp key
      rw [eq_of_equals d exact.1 first, eq_of_equalsEntries ds exact.2 others]

end

theorem notNaN_of_notFloat : (d : Data) → d.NotFloat → d.NotNaN
  | .float _, exact => exact.elim
  | .null, _ | .bool _, _ | .int _, _ | .uint _, _ | .string _, _ | .list _, _ | .map _, _ => trivial

/-- Trees of which one has no floating-point numbers are equal exactly if they are the same. -/
theorem equals_iff_eq {d e : Data} (exact : d.Everywhere NotFloat) : d.equals e = true ↔ d = e :=
  ⟨eq_of_equals d exact, fun same ↦ same ▸ equals_self d (exact.imp notNaN_of_notFloat d)⟩

end Data

namespace Heap

variable {h g : Heap} {v w : Value}

/-! ## Sequences, element by element -/

section Related

variable {α β : Type}

theorem related_map (relation : β → β → Bool) (f : α → β) (xs ys : List α) :
    related relation (xs.map f) (ys.map f) = related (fun x y ↦ relation (f x) (f y)) xs ys := by
  induction xs generalizing ys with
  | nil => cases ys <;> rfl
  | cons x xs ih =>
    cases ys with
    | nil => rfl
    | cons y ys => rw [List.map_cons, List.map_cons, related, related, ih]

/-- If one relation holds of elements where another one and a condition do, so it is for sequences. -/
theorem related_iff {relation other : α → α → Bool} {condition : α → α → Prop} {xs ys : List α}
    (each : ∀ x ∈ xs, ∀ y ∈ ys, (relation x y = true ↔ other x y = true ∧ condition x y)) :
    related relation xs ys = true ↔ related other xs ys = true ∧
      ∀ (i : Nat) x y, xs[i]? = some x → ys[i]? = some y → condition x y := by
  induction xs generalizing ys with
  | nil => cases ys <;> simp [related]
  | cons x xs ih =>
    cases ys with
    | nil => simp [related]
    | cons y ys =>
      have first := each x List.mem_cons_self y List.mem_cons_self
      have others := ih fun a mem b also ↦
        each a (List.mem_cons_of_mem _ mem) b (List.mem_cons_of_mem _ also)
      rw [related, related, Bool.and_eq_true, Bool.and_eq_true, first, others]
      constructor
      · rintro ⟨⟨same, holds⟩, rest, hold⟩
        refine ⟨⟨same, rest⟩, fun i a b atA atB ↦ ?_⟩
        cases i with
        | zero =>
          cases atA
          cases atB
          exact holds
        | succ i => exact hold i a b atA atB
      · rintro ⟨⟨same, rest⟩, hold⟩
        exact ⟨⟨same, hold 0 x y rfl rfl⟩, rest, fun i a b atA atB ↦ hold (i + 1) a b atA atB⟩

end Related

theorem equalsItems_eq (ds es : List Data) : Data.equalsItems ds es = related Data.equals ds es := by
  induction ds generalizing es with
  | nil => cases es <;> rfl
  | cons d ds ih =>
    cases es with
    | nil => rfl
    | cons e es => rw [Data.equalsItems, related, ih]

theorem equalsEntries_eq (ds es : List (String × Data)) :
    Data.equalsEntries ds es = related (fun a b ↦ a.1 == b.1 && a.2.equals b.2) ds es := by
  induction ds generalizing es with
  | nil => cases es <;> rfl
  | cons d ds ih =>
    cases es with
    | nil => rfl
    | cons e es => rw [Data.equalsEntries, related, ih]

/-! ## What two values share -/

/-- No list or map that a path leads to in both values has a NaN in it. -/
def SharesNoNaN (h : Heap) (v w : Value) : Prop :=
  ∀ path r, h.follow v path = some r → h.follow w path = some r → r.isHandle →
    (h.read r).Everywhere Data.NotNaN

theorem sharesNoNaN_iff : h.SharesNoNaN v w ↔
    (v = w → v.isHandle → (h.read v).Everywhere Data.NotNaN) ∧
      ∀ (i : Nat) x y, (h.inside v)[i]? = some x → (h.inside w)[i]? = some y → h.SharesNoNaN x y := by
  constructor
  · intro shares
    refine ⟨fun same handle ↦ shares [] v (follow_nil v) (same ▸ follow_nil v) handle, ?_⟩
    intro i x y atX atY path r first second handle
    exact shares (i :: path) r (follow_cons_eq_some_iff.mpr ⟨x, atX, first⟩)
      (follow_cons_eq_some_iff.mpr ⟨y, atY, second⟩) handle
  · rintro ⟨here, inner⟩ path r first second handle
    cases path with
    | nil =>
      obtain rfl : v = r := Option.some.inj first
      exact here (Option.some.inj second).symm handle
    | cons i path =>
      obtain ⟨x, atX, first⟩ := follow_cons_eq_some_iff.mp first
      obtain ⟨y, atY, second⟩ := follow_cons_eq_some_iff.mp second
      exact inner i x y atX atY path r first second handle

theorem sharesNoNaN_of_scalar (scalar : ¬ v.isHandle) : h.SharesNoNaN v w := by
  intro path r first second handle
  obtain rfl := eq_of_follow_scalar scalar first
  exact absurd handle scalar

/-! ## Equality and contents -/

theorem equals_read_list (closed : h.Closed) (acyclic : h.Acyclic) {r s : ListRef} (hasR : h.Has (.list r))
    (hasS : h.Has (.list s)) : (h.read (.list r)).equals (h.read (.list s)) =
      related (fun x y ↦ (h.read x).equals (h.read y)) (h.items r) (h.items s) := by
  rw [read_list closed acyclic hasR, read_list closed acyclic hasS, Data.equals, equalsItems_eq, related_map]

theorem equals_read_map (closed : h.Closed) (acyclic : h.Acyclic) {r s : MapRef} (hasR : h.Has (.map r))
    (hasS : h.Has (.map s)) : (h.read (.map r)).equals (h.read (.map s)) =
      related (fun a b ↦ a.1 == b.1 && (h.read a.2).equals (h.read b.2)) (h.entries r) (h.entries s) := by
  rw [read_map closed acyclic hasR, read_map closed acyclic hasS, Data.equals, equalsEntries_eq, related_map]

/-- What is at one position of two maps. -/
theorem forall_inside_map {r s : MapRef} {relation : Value → Value → Prop} :
    (∀ (i : Nat) x y, (h.inside (.map r))[i]? = some x → (h.inside (.map s))[i]? = some y →
      relation x y) ↔
    ∀ (i : Nat) a b, (h.entries r)[i]? = some a → (h.entries s)[i]? = some b → relation a.2 b.2 := by
  simp only [inside_map, List.getElem?_map]
  constructor
  · intro each i a b atA atB
    exact each i a.2 b.2 (by rw [atA, Option.map_some]) (by rw [atB, Option.map_some])
  · intro each i x y atX atY
    obtain ⟨a, atA, rfl⟩ := Option.map_eq_some_iff.mp atX
    obtain ⟨b, atB, rfl⟩ := Option.map_eq_some_iff.mp atY
    exact each i a b atA atB

theorem kind_read (closed : h.Closed) (acyclic : h.Acyclic) (knows : h.Knows v) :
    (h.read v).kind = v.kind := by
  cases v with
  | list r => rw [read_list closed acyclic (knows rfl)]; rfl
  | map r => rw [read_map closed acyclic (knows rfl)]; rfl
  | null | bool b | int i | uint u | float x | string s => rw [read]; cases h.size <;> rfl

theorem kind_of_equals {d e : Data} (same : d.equals e = true) : d.kind = e.kind := by
  cases d <;> cases e <;> simp [Data.equals, Data.kind] at same ⊢

theorem kind_of_equalAt {fuel : Nat} (same : h.equalAt fuel v w = true) : v.kind = w.kind := by
  cases v <;> cases w <;> cases fuel <;> simp [equalAt, Value.kind] at same ⊢

/-- Two handles on one list or map may differ in contents only by a NaN that they share. -/
theorem equals_iff_of_inside (handle : v.isHandle) {contents : Bool}
    (inner : (h.read v).equals (h.read w) = true ↔ contents = true ∧
      ∀ (i : Nat) x y, (h.inside v)[i]? = some x → (h.inside w)[i]? = some y → h.SharesNoNaN x y) :
    (h.read v).equals (h.read w) = true ↔ (v = w ∨ contents = true) ∧ h.SharesNoNaN v w := by
  rw [sharesNoNaN_iff]
  constructor
  · intro same
    obtain ⟨related, deeper⟩ := inner.mp same
    exact ⟨.inr related, fun _ _ ↦ Data.everywhere_of_equals _ same, deeper⟩
  · rintro ⟨rfl | related, here, deeper⟩
    · exact Data.equals_self _ (here rfl handle)
    · exact inner.mpr ⟨related, deeper⟩

section Known

variable (closed : h.Closed) (acyclic : h.Acyclic) (knowsV : h.Knows v) (knowsW : h.Knows w)
include closed acyclic knowsV knowsW

theorem equals_iff_of_kind_ne (kinds : v.kind ≠ w.kind) (fuel : Nat) :
    (h.read v).equals (h.read w) = true ↔ h.equalAt fuel v w = true ∧ h.SharesNoNaN v w := by
  refine iff_of_false (fun same ↦ kinds ?_) fun both ↦ kinds (kind_of_equalAt both.1)
  rw [← kind_read closed acyclic knowsV, ← kind_read closed acyclic knowsW]
  exact kind_of_equals same

/-- Scalars are compared as their trees are. -/
theorem equals_iff_of_scalar (scalar : ¬ v.isHandle) (fuel : Nat) :
    (h.read v).equals (h.read w) = true ↔ h.equalAt fuel v w = true ∧ h.SharesNoNaN v w := by
  by_cases kinds : v.kind = w.kind
  · rw [and_iff_left (sharesNoNaN_of_scalar scalar)]
    cases v with
    | list r | map r => exact absurd rfl scalar
    | null | bool b | int i | uint u | float x | string s =>
      cases w <;> cases kinds
      simp only [read]
      cases h.size <;> cases fuel <;> simp [readAt, Data.equals, equalAt]
  · exact equals_iff_of_kind_ne closed acyclic knowsV knowsW kinds fuel

/-- Trees are equal exactly if the values are, and what the values share has no NaN in it. -/
theorem equals_iff_equalAt {fuel : Nat} (enough : (h.reach v).card ≤ fuel) :
    (h.read v).equals (h.read w) = true ↔ h.equalAt fuel v w = true ∧ h.SharesNoNaN v w := by
  induction fuel generalizing v w with
  | zero =>
    have scalar := not_isHandle_of_card_reach knowsV (Nat.le_zero.mp enough)
    exact equals_iff_of_scalar closed acyclic knowsV knowsW scalar 0
  | succ fuel ih =>
    have inner : ∀ x ∈ h.inside v, ∀ y ∈ h.inside w,
        ((h.read x).equals (h.read y) = true ↔ h.equalAt fuel x y = true ∧ h.SharesNoNaN x y) := by
      intro x mem y also
      have less := card_reach_lt acyclic (knowsV (isHandle_of_mem_inside mem)) mem
      exact ih (closed v x mem) (closed w y also) (by omega)
    cases v with
    | list r =>
      cases w with
      | list s =>
        have contents := related_iff inner
        rw [inside_list, inside_list, ← equals_read_list closed acyclic (knowsV rfl) (knowsW rfl)] at contents
        rw [equals_iff_of_inside rfl contents, equalAt, Bool.or_eq_true, beq_iff_eq, Value.list.injEq]
      | null | bool b | int i | uint u | float x | string s | map s =>
        exact equals_iff_of_kind_ne closed acyclic knowsV knowsW nofun _
    | map r =>
      cases w with
      | map s =>
        have entries : ∀ a ∈ h.entries r, ∀ b ∈ h.entries s,
            ((a.1 == b.1 && (h.read a.2).equals (h.read b.2)) = true ↔
              (a.1 == b.1 && h.equalAt fuel a.2 b.2) = true ∧ h.SharesNoNaN a.2 b.2) := by
          intro a mem b also
          rw [Bool.and_eq_true, Bool.and_eq_true, and_assoc,
            inner a.2 (List.mem_map_of_mem mem) b.2 (List.mem_map_of_mem also)]
        have contents := related_iff entries
        rw [← equals_read_map closed acyclic (knowsV rfl) (knowsW rfl), ← forall_inside_map] at contents
        rw [equals_iff_of_inside rfl contents, equalAt, Bool.or_eq_true, beq_iff_eq, Value.map.injEq]
      | null | bool b | int i | uint u | float x | string s | list s =>
        exact equals_iff_of_kind_ne closed acyclic knowsV knowsW nofun _
    | null | bool b | int i | uint u | float x | string s =>
      exact equals_iff_of_scalar closed acyclic knowsV knowsW nofun _

/-- Trees are equal exactly if the values are, and what the values share has no NaN in it. -/
theorem equals_iff_equal :
    (h.read v).equals (h.read w) = true ↔ h.equal v w = true ∧ h.SharesNoNaN v w :=
  equals_iff_equalAt closed acyclic knowsV knowsW (card_reach_le v)

/-- Values that share nothing with a NaN in it are compared as their trees are. -/
theorem equal_eq_equals (shares : h.SharesNoNaN v w) : h.equal v w = (h.read v).equals (h.read w) := by
  rw [Bool.eq_iff_iff, equals_iff_equal closed acyclic knowsV knowsW, and_iff_left shares]

end Known

/-- A handle equals itself whatever is inside, and a scalar if it is no NaN. -/
theorem equal_self_iff : h.equal v v = true ↔ ∀ x, v = .float x → x.isNaN = false := by
  rw [equal]
  cases v with
  | float x => cases h.size <;> simp [equalAt]
  | null | bool b | int i | uint u | string s | list r | map r => cases h.size <;> simp [equalAt]

/-- What holds everywhere in the tree of a value holds everywhere in the trees of what it leads to. -/
theorem everywhere_of_leads (closed : h.Closed) (acyclic : h.Acyclic) (knows : h.Knows v)
    {P : Data → Prop} (everywhere : (h.read v).Everywhere P) (leads : h.Leads v w) :
    (h.read w).Everywhere P := by
  have inward : ∀ u, h.Knows u ∧ (h.read u).Everywhere P → ∀ x ∈ h.inside u,
      h.Knows x ∧ (h.read x).Everywhere P := by
    rintro u ⟨known, holds⟩ x mem
    refine ⟨closed u x mem, ?_⟩
    cases u with
    | list r =>
      rw [read_list closed acyclic (known rfl)] at holds
      exact Data.everywhereItems_iff.mp holds.2 _ (List.mem_map_of_mem mem)
    | map r =>
      rw [read_map closed acyclic (known rfl)] at holds
      obtain ⟨e, among, rfl⟩ := List.mem_map.mp mem
      exact Data.everywhereEntries_iff.mp holds.2 _ (List.mem_map_of_mem among)
    | null | bool b | int i | uint u | float x | string s => exact absurd mem List.not_mem_nil
  exact (leads.induction inward ⟨knows, everywhere⟩).2

/-! ## Equality with copies -/

theorem follow_append {path : List Nat} (follows : h.follow v path = some w) (more : List Nat) :
    h.follow v (path ++ more) = h.follow w more := by
  induction path generalizing v with
  | nil =>
    obtain rfl : v = w := Option.some.inj follows
    rfl
  | cons i rest ih =>
    obtain ⟨u, found, follows⟩ := follow_cons_eq_some_iff.mp follows
    rw [List.cons_append, follow_cons, found, Option.bind_some, ih follows]

section Copies

variable {copy : Value}

/-- What is there once a copy is made was there before, or is part of the copy. -/
theorem Separate.cases (separate : h.Separate g copy) (has : g.Has v) : h.Has v ∨ g.Leads copy v := by
  by_cases old : h.Has v
  · exact .inl old
  · exact .inr ((separate.fresh v (isHandle_of_has has)).mpr ⟨has, old⟩)

/-- No handle dangles once a copy is made. -/
theorem Separate.closed (separate : h.Separate g copy) (closed : h.Closed) : g.Closed := by
  intro v w mem handle
  rcases separate.cases (has_of_mem_inside mem) with old | reached
  · rw [(separate.older.same v old).inside_eq] at mem
    exact separate.older.has (closed v w mem handle)
  · exact ((separate.fresh w handle).mp (reached.trans (.of_mem mem (.refl w)))).1

theorem separate_deepCopy (h : Heap) (v : Value) : h.Separate (h.deepCopy v).2 (h.deepCopy v).1 :=
  separate_alloc (h.read v) h

theorem read_deepCopy (h : Heap) (v : Value) : (h.deepCopy v).2.read (h.deepCopy v).1 = h.read v :=
  read_of_stands (stands_alloc (h.read v) h (.refl _))
    ((depth_readAt_le h.size v).trans (h.separate_deepCopy v).older.size_le)

/-- There are no reference cycles once a copy is made. -/
theorem acyclic_deepCopy (closed : h.Closed) (acyclic : h.Acyclic) (v : Value) :
    (h.deepCopy v).2.Acyclic := by
  have separate := h.separate_deepCopy v
  have planted := planted_alloc (h.deepCopy v).2 (h.read v) h (.refl _)
  intro u path around
  cases path with
  | nil => rfl
  | cons i rest =>
    obtain ⟨x, found, -⟩ := follow_cons_eq_some_iff.mp around
    have mem := List.mem_of_getElem? found
    rcases separate.cases (has_of_mem_inside mem) with old | ⟨way, follows⟩
    · rw [(separate.older.agrees closed).follow_eq (fun _ ↦ old)] at around
      exact acyclic u _ around
    · -- the copy leads here by one path only, so a way round would be part of it
      have again := (follow_append follows (i :: rest)).trans around
      have alone := planted.sole 0 0 _ _ _ way u rfl rfl again follows (isHandle_of_mem_inside mem)
      exact List.append_right_eq_self.mp alone.2

/-- A copy shares nothing with what was known before. -/
theorem Separate.sharesNoNaN (separate : h.Separate g copy) (closed : h.Closed) (knows : h.Knows w) :
    g.SharesNoNaN copy w ∧ g.SharesNoNaN w copy := by
  have apart : ∀ {p q : List Nat} {r : Value}, g.follow copy p = some r → g.follow w q = some r →
      ¬ r.isHandle := by
    intro p q r fresh old handle
    rw [(separate.older.agrees closed).follow_eq knows] at old
    have leads : h.Leads w r := ⟨q, old⟩
    exact separate.not_has ⟨p, fresh⟩ (leads.induction (fun u _ ↦ closed u) knows handle)
  exact ⟨fun _ _ first second handle ↦ absurd handle (apart first second),
    fun _ _ first second handle ↦ absurd handle (apart second first)⟩

end Copies

/-- Equality of two values is equality of their contents, unless a list or a map that they share, in the
same place of both, has a NaN in it: it equals itself, and its contents do not.  So values without NaN are
compared by their contents alone, wherever these are stored.  A deep copy shares nothing with what was there
before, so a copy is always compared by its contents, and it equals the original exactly if these have no
NaN. -/
theorem equal_iff_contents {h : Heap} {v w : Value} (closed : h.Closed) (acyclic : h.Acyclic)
    (knowsV : h.Knows v) (knowsW : h.Knows w) :
    ((h.read v).equals (h.read w) = true ↔ h.equal v w = true ∧ h.SharesNoNaN v w) ∧
    ((h.read v).Everywhere Data.NotNaN ∨ (h.read w).Everywhere Data.NotNaN →
      ∀ (g : Heap) x y, g.Closed → g.Acyclic → g.Knows x → g.Knows y → g.read x = h.read v →
        g.read y = h.read w → g.equal x y = (h.read v).equals (h.read w)) ∧
    (h.deepCopy v).2.equal (h.deepCopy v).1 w = (h.read v).equals (h.read w) ∧
    (h.deepCopy v).2.equal w (h.deepCopy v).1 = (h.read w).equals (h.read v) ∧
    ((h.deepCopy v).2.equal v (h.deepCopy v).1 = true ↔ (h.read v).Everywhere Data.NotNaN) ∧
    (h.equal v v = true ↔ ∀ x, v = .float x → x.isNaN = false) := by
  have separate := h.separate_deepCopy v
  have closedG := separate.closed closed
  have acyclicG := acyclic_deepCopy closed acyclic v
  -- the copy and what was known before, in the heap that has both
  have known : ∀ {u}, h.Knows u → (h.deepCopy v).2.Knows u := fun knows handle ↦
    separate.older.has (knows handle)
  have knowsCopy : (h.deepCopy v).2.Knows (h.deepCopy v).1 := fun handle ↦
    ((separate.fresh _ handle).mp (.refl _)).1
  have read : ∀ {u}, h.Knows u → (h.deepCopy v).2.read u = h.read u := fun knows ↦
    (separate.older.agrees closed).read_eq knows separate.older.size_le (stands_read closed acyclic knows)
  refine ⟨equals_iff_equal closed acyclic knowsV knowsW, ?_, ?_, ?_, ?_, equal_self_iff⟩
  · intro numbers g x y closedG acyclicG knowsX knowsY readX readY
    rw [← readX, ← readY] at numbers ⊢
    apply equal_eq_equals closedG acyclicG knowsX knowsY
    intro path r first second _
    rcases numbers with numbers | numbers
    · exact everywhere_of_leads closedG acyclicG knowsX numbers ⟨path, first⟩
    · exact everywhere_of_leads closedG acyclicG knowsY numbers ⟨path, second⟩
  · rw [equal_eq_equals closedG acyclicG knowsCopy (known knowsW) (separate.sharesNoNaN closed knowsW).1,
      read_deepCopy, read knowsW]
  · rw [equal_eq_equals closedG acyclicG (known knowsW) knowsCopy (separate.sharesNoNaN closed knowsW).2,
      read_deepCopy, read knowsW]
  · rw [equal_eq_equals closedG acyclicG (known knowsV) knowsCopy (separate.sharesNoNaN closed knowsV).2,
      read knowsV, read_deepCopy]
    exact ⟨Data.everywhere_of_equals _, Data.equals_self _⟩

/-- A list of a NaN, and two lists that both hold it. -/
def unequal : Heap := ⟨#[[.float .nan], [.list ⟨0⟩, .int 1], [.list ⟨0⟩, .int 1]], #[]⟩

theorem inside_unequal {v w : Value} (mem : w ∈ unequal.inside v) :
    v = .list ⟨0⟩ ∧ w = .float .nan ∨
      (v = .list ⟨1⟩ ∨ v = .list ⟨2⟩) ∧ (w = .list ⟨0⟩ ∨ w = .int 1) := by
  have has : unequal.Has v := has_of_mem_inside mem
  cases v with
  | list r =>
    obtain ⟨i⟩ := r
    have below : i < 3 := has
    interval_cases i <;> simpa [unequal, items] using mem
  | map r => exact absurd has (Nat.not_lt_zero _)
  | null | bool b | int i | uint u | float x | string s => exact has.elim

theorem closed_unequal : unequal.Closed := by
  intro v w mem handle
  rcases inside_unequal mem with ⟨-, rfl⟩ | ⟨-, rfl | rfl⟩
  · cases handle
  · decide
  · cases handle

theorem acyclic_unequal : unequal.Acyclic := by
  -- a list is above the values in it
  apply acyclic_of_rank fun v ↦ if v = .list ⟨0⟩ then 1 else if v.isHandle then 2 else 0
  intro v w mem
  rcases inside_unequal mem with ⟨rfl, rfl⟩ | ⟨rfl | rfl, rfl | rfl⟩ <;> decide

/-- Two lists that both hold a list of a NaN are equal, and their contents are not. -/
theorem equal_iff_contents_unequal :
    unequal.Closed ∧ unequal.Acyclic ∧ unequal.Knows (.list ⟨1⟩) ∧ unequal.Knows (.list ⟨2⟩) ∧
      unequal.equal (.list ⟨1⟩) (.list ⟨2⟩) = true ∧ ¬ unequal.SharesNoNaN (.list ⟨1⟩) (.list ⟨2⟩) ∧
      (unequal.deepCopy (.list ⟨1⟩)).2.equal (unequal.deepCopy (.list ⟨1⟩)).1 (.list ⟨2⟩) = false := by
  have knows₁ : unequal.Knows (.list ⟨1⟩) := fun _ ↦ by decide
  have knows₂ : unequal.Knows (.list ⟨2⟩) := fun _ ↦ by decide
  have contents : (unequal.read (.list ⟨1⟩)).equals (unequal.read (.list ⟨2⟩)) = false := by rfl
  have same : unequal.equal (.list ⟨1⟩) (.list ⟨2⟩) = true := by rfl
  obtain ⟨exactly, -, copied, -⟩ := equal_iff_contents closed_unequal acyclic_unequal knows₁ knows₂
  refine ⟨closed_unequal, acyclic_unequal, knows₁, knows₂, same, fun shares ↦ ?_, copied.trans contents⟩
  rw [exactly.mpr ⟨same, shares⟩] at contents
  cases contents

/-- A list of a NaN equals itself, but neither its contents nor a deep copy of it. -/
theorem equal_self_nan :
    unequal.Closed ∧ unequal.Acyclic ∧ unequal.Knows (.list ⟨0⟩) ∧
      unequal.equal (.list ⟨0⟩) (.list ⟨0⟩) = true ∧
      (unequal.read (.list ⟨0⟩)).equals (unequal.read (.list ⟨0⟩)) = false ∧
      (unequal.deepCopy (.list ⟨0⟩)).2.equal (.list ⟨0⟩) (unequal.deepCopy (.list ⟨0⟩)).1 = false :=
  ⟨closed_unequal, acyclic_unequal, fun _ ↦ by decide, by rfl, by rfl, by rfl⟩

end Heap

end Troupe
