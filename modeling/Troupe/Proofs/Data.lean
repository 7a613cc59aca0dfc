import Mathlib.Algebra.Group.Nat.Defs
import Troupe.Data.Basic

/-!
# Trees of values

What holds of a tree and of all trees in it holds everywhere in it.  A tree that stands for a value has the
entries of all its maps in key order (`Data.Ordered`); entries that are inserted in that order stay as they
came.
-/

namespace Troupe

namespace Entries

variable {α : Type}

/-- A key that comes after all others is put at the end. -/
theorem insert_of_forall_lt {key : String} (value : α) {es : Entries α} (after : ∀ e ∈ es, e.1 < key) :
    insert key value es = es ++ [(key, value)] := by
  induction es with
  | nil => rfl
  | cons e rest ih =>
    obtain ⟨k, v⟩ := e
    have before : k < key := after (k, v) List.mem_cons_self
    have apart : key ≠ k := by
      rintro rfl
      exact String.lt_irrefl _ before
    rw [insert, if_neg apart, if_neg (String.lt_asymm before),
      ih fun e among ↦ after e (List.mem_cons_of_mem _ among)]
    rfl

/-- The next of the entries that come after all others is put at the end. -/
theorem insert_of_after {β : Type} {before : Entries β} {key : String} {value : α} {es : Entries α}
    (after : ∀ a ∈ before, ∀ e ∈ (key, value) :: es, a.1 < e.1) (new : β) :
    insert key new before = before ++ [(key, new)] := by
  apply insert_of_forall_lt
  intro a among
  exact after a among (key, value) List.mem_cons_self

/-- Those that come after what was put so far come after the next one as well. -/
theorem lt_of_sorted_cons {β : Type} {before : Entries β} {key : String} {value : α} {es : Entries α}
    (after : ∀ a ∈ before, ∀ e ∈ (key, value) :: es, a.1 < e.1) (sorted : Sorted ((key, value) :: es))
    (new : β) : ∀ a ∈ before ++ [(key, new)], ∀ e ∈ es, a.1 < e.1 := by
  intro a among e listed
  rcases List.mem_append.mp among with old | last
  · exact after a old e (List.mem_cons_of_mem _ listed)
  · rw [List.mem_singleton.mp last]
    exact (List.pairwise_cons.mp sorted).1 e listed

end Entries

namespace Data

/-- A number that fits a signed word is held in one. -/
theorem ofUInt64_of_lt {n : Nat} (small : n < 2 ^ 63) :
    ofUInt64 (UInt64.ofNat n) = .int (Int64.ofNat n) := by
  have number : (UInt64.ofNat n).toNat = n := UInt64.toNat_ofNat_of_lt' (Nat.lt_trans small (by decide))
  rw [ofUInt64, number, if_pos (by omega)]

mutual

/-- The property holds of a tree and of all trees in it. -/
def Everywhere (P : Data → Prop) : Data → Prop
  | .list items => P (.list items) ∧ EverywhereItems P items
  | .map entries => P (.map entries) ∧ EverywhereEntries P entries
  | d => P d

/-- The property holds everywhere in the items of a list. -/
def EverywhereItems (P : Data → Prop) : List Data → Prop
  | [] => True
  | d :: rest => Everywhere P d ∧ EverywhereItems P rest

/-- The property holds everywhere in the values of a map. -/
def EverywhereEntries (P : Data → Prop) : List (String × Data) → Prop
  | [] => True
  | (_, d) :: rest => Everywhere P d ∧ EverywhereEntries P rest

end

mutual

/-- What can be decided of a tree can be decided everywhere in it. -/
instance decidableEverywhere (P : Data → Prop) [DecidablePred P] : DecidablePred (Everywhere P)
  | .list items =>
    have := decidableEverywhereItems P items
    inferInstanceAs (Decidable (P (.list items) ∧ EverywhereItems P items))
  | .map entries =>
    have := decidableEverywhereEntries P entries
    inferInstanceAs (Decidable (P (.map entries) ∧ EverywhereEntries P entries))
  | .null | .bool _ | .int _ | .uint _ | .float _ | .string _ => inferInstanceAs (Decidable (P _))

instance decidableEverywhereItems (P : Data → Prop) [DecidablePred P] : DecidablePred (EverywhereItems P)
  | [] => inferInstanceAs (Decidable True)
  | d :: rest =>
    have := decidableEverywhere P d
    have := decidableEverywhereItems P rest
    inferInstanceAs (Decidable (Everywhere P d ∧ EverywhereItems P rest))

instance decidableEverywhereEntries (P : Data → Prop) [DecidablePred P] :
    DecidablePred (EverywhereEntries P)
  | [] => inferInstanceAs (Decidable True)
  | (_, d) :: rest =>
    have := decidableEverywhere P d
    have := decidableEverywhereEntries P rest
    inferInstanceAs (Decidable (Everywhere P d ∧ EverywhereEntries P rest))

end

theorem Everywhere.root {P : Data → Prop} {d : Data} (h : d.Everywhere P) : P d := by
  cases d with
  | list items | map entries => exact h.1
  | null | bool b | int i | uint u | float x | string s => exact h

mutual

/-- What follows from a property that holds everywhere in a tree holds everywhere in it. -/
theorem Everywhere.imp {P Q : Data → Prop} (follows : ∀ d, P d → Q d) :
    (d : Data) → d.Everywhere P → d.Everywhere Q
  | .null, holds | .bool _, holds | .int _, holds | .uint _, holds | .float _, holds
  | .string _, holds => follows _ holds
  | .list items, holds => ⟨follows _ holds.1, EverywhereItems.imp follows items holds.2⟩
  | .map entries, holds => ⟨follows _ holds.1, EverywhereEntries.imp follows entries holds.2⟩

theorem EverywhereItems.imp {P Q : Data → Prop} (follows : ∀ d, P d → Q d) :
    (ds : List Data) → EverywhereItems P ds → EverywhereItems Q ds
  | [], _ => trivial
  | d :: rest, holds => ⟨Everywhere.imp follows d holds.1, EverywhereItems.imp follows rest holds.2⟩

theorem EverywhereEntries.imp {P Q : Data → Prop} (follows : ∀ d, P d → Q d) :
    (es : List (String × Data)) → EverywhereEntries P es → EverywhereEntries Q es
  | [], _ => trivial
  | (_, d) :: rest, holds => ⟨Everywhere.imp follows d holds.1, EverywhereEntries.imp follows rest holds.2⟩

end

theorem everywhereItems_iff {P : Data → Prop} {ds : List Data} :
    EverywhereItems P ds ↔ ∀ d ∈ ds, d.Everywhere P := by
  induction ds with
  | nil => exact ⟨fun _ ↦ List.forall_mem_nil _, fun _ ↦ trivial⟩
  | cons d rest ih => rw [EverywhereItems, ih, List.forall_mem_cons]

theorem everywhereEntries_iff {P : Data → Prop} {es : List (String × Data)} :
    EverywhereEntries P es ↔ ∀ e ∈ es, e.2.Everywhere P := by
  induction es with
  | nil => exact ⟨fun _ ↦ List.forall_mem_nil _, fun _ ↦ trivial⟩
  | cons e rest ih => rw [EverywhereEntries, ih, List.forall_mem_cons]

theorem depthItems_le {n : Nat} {ds : List Data} (each : ∀ d ∈ ds, d.depth ≤ n) : depthItems ds ≤ n := by
  induction ds with
  | nil => exact Nat.zero_le n
  | cons d rest ih =>
    rw [depthItems]
    exact Nat.max_le.mpr
      ⟨each d List.mem_cons_self, ih fun e mem ↦ each e (List.mem_cons_of_mem _ mem)⟩

theorem depthEntries_le {n : Nat} {es : List (String × Data)} (each : ∀ e ∈ es, e.2.depth ≤ n) :
    depthEntries es ≤ n := by
  induction es with
  | nil => exact Nat.zero_le n
  | cons e rest ih =>
    rw [depthEntries]
    exact Nat.max_le.mpr
      ⟨each e List.mem_cons_self, ih fun f mem ↦ each f (List.mem_cons_of_mem _ mem)⟩

/-- The entries of a map are in key order. -/
def Sorted : Data → Prop
  | .map entries => Entries.Sorted entries
  | _ => True

instance : DecidablePred Sorted
  | .map entries => inferInstanceAs (Decidable (entries.Pairwise fun a b ↦ a.1 < b.1))
  | .null | .bool _ | .int _ | .uint _ | .float _ | .string _ | .list _ => inferInstanceAs (Decidable True)

/-- The entries of all maps in a tree are in key order, as those of values are. -/
def Ordered (d : Data) : Prop := d.Everywhere Sorted

instance : DecidablePred Ordered := fun d ↦ inferInstanceAs (Decidable (d.Everywhere Sorted))

/-- The tree is no floating-point number. -/
def NotFloat : Data → Prop
  | .float _ => False
  | _ => True

instance : DecidablePred NotFloat
  | .float _ => inferInstanceAs (Decidable False)
  | .null | .bool _ | .int _ | .uint _ | .string _ | .list _ | .map _ => inferInstanceAs (Decidable True)

end Data

end Troupe
