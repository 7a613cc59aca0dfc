import Mathlib.Data.List.Induction
import Mathlib.Data.List.Nodup
import Mathlib.Data.List.Perm.Basic
import Mathlib.Data.String.Basic
import Mathlib.Tactic.SplitIfs
import Troupe.Data.Entries

/-!
# Entries from any sequence of insertions

Whatever comes, the entries that are left are in key order, and each of them is one of those that came
(`Entries.mem_of_mem_ofList`).  Under distinct keys all that came are left (`Entries.perm_ofList`), and the
order in which they came does not matter (`Entries.ofList_perm`).  Entries in key order are found under their
keys, and after a key comes the one with the next greater key (`Entries.Sorted.after?_eq_some`).
-/

namespace Troupe.Entries

variable {α : Type} {key : String} {value : α} {es : Entries α} {e : String × α}

/-! ## One insertion or removal -/

theorem mem_of_mem_insert (mem : e ∈ insert key value es) : e = (key, value) ∨ e ∈ es := by
  induction es with
  | nil => exact .inl (List.mem_singleton.mp mem)
  | cons f rest ih =>
    rw [insert] at mem
    split_ifs at mem with same before
    · exact (List.mem_cons.mp mem).imp_right (List.mem_cons_of_mem _)
    · exact List.mem_cons.mp mem
    · rcases List.mem_cons.mp mem with rfl | later
      · exact .inr List.mem_cons_self
      · exact (ih later).imp_right (List.mem_cons_of_mem _)

theorem mem_of_mem_erase (mem : e ∈ erase key es) : e ∈ es := by
  induction es with
  | nil => exact mem
  | cons f rest ih =>
    rw [erase] at mem
    split_ifs at mem with same
    · exact List.mem_cons_of_mem _ mem
    · rcases List.mem_cons.mp mem with rfl | later
      · exact List.mem_cons_self
      · exact List.mem_cons_of_mem _ (ih later)

theorem length_insert_le (key : String) (value : α) (es : Entries α) :
    (insert key value es).length ≤ es.length + 1 := by
  induction es with
  | nil => exact Nat.le_refl _
  | cons f rest ih =>
    rw [insert]
    split_ifs
    · exact Nat.le_succ _
    · exact Nat.le_refl _
    · exact Nat.succ_le_succ ih

/-- Under a new key an entry is put beside all others. -/
theorem perm_insert (new : key ∉ es.map Prod.fst) (value : α) :
    (insert key value es).Perm ((key, value) :: es) := by
  induction es with
  | nil => exact .refl _
  | cons f rest ih =>
    rw [List.map_cons, List.mem_cons, not_or] at new
    rw [insert, if_neg new.1]
    split_ifs
    · exact .refl _
    · exact ((ih new.2).cons f).trans (.swap _ _ _)

theorem Sorted.insert (sorted : Sorted es) (key : String) (value : α) :
    Sorted (Entries.insert key value es) := by
  induction es with
  | nil => exact List.pairwise_singleton _ _
  | cons f rest ih =>
    obtain ⟨after, others⟩ := List.pairwise_cons.mp sorted
    rw [Entries.insert]
    split_ifs with same before
    · subst same
      exact List.pairwise_cons.mpr ⟨after, others⟩
    · refine List.pairwise_cons.mpr ⟨fun e mem ↦ ?_, sorted⟩
      rcases List.mem_cons.mp mem with rfl | later
      · exact before
      · exact before.trans (after e later)
    · refine List.pairwise_cons.mpr ⟨fun e mem ↦ ?_, ih others⟩
      rcases mem_of_mem_insert mem with rfl | later
      · exact lt_of_le_of_ne (le_of_not_gt before) (Ne.symm same)
      · exact after e later

theorem Sorted.erase (sorted : Sorted es) (key : String) : Sorted (Entries.erase key es) := by
  induction es with
  | nil => exact sorted
  | cons f rest ih =>
    obtain ⟨after, others⟩ := List.pairwise_cons.mp sorted
    rw [Entries.erase]
    split_ifs with same
    · exact others
    · exact List.pairwise_cons.mpr ⟨fun e mem ↦ after e (mem_of_mem_erase mem), ih others⟩

/-- Values are put under two keys in any order. -/
theorem insert_comm {k l : String} (apart : k ≠ l) (v w : α) (es : Entries α) :
    insert k v (insert l w es) = insert l w (insert k v es) := by
  induction es with
  | nil =>
    rcases lt_or_gt_of_ne apart with before | after
    · simp [insert, apart, apart.symm, before, before.not_gt]
    · simp [insert, apart, apart.symm, after, after.not_gt]
  | cons f rest ih =>
    obtain ⟨m, x⟩ := f
    grind [insert]

/-! ## Entries that are found -/

/-- In key order, the value of an entry is the one that is found under its key. -/
theorem Sorted.find?_of_mem (sorted : Sorted es) (mem : e ∈ es) : find? e.1 es = some e.2 := by
  induction es with
  | nil => cases mem
  | cons f rest ih =>
    obtain ⟨after, others⟩ := List.pairwise_cons.mp sorted
    rw [find?]
    rcases List.mem_cons.mp mem with rfl | later
    · exact if_pos rfl
    · rw [if_neg (ne_of_lt (after e later)), ih others later]

theorem all_lt_iff {last : Option String} :
    (last.all fun l ↦ decide (l < key)) = true ↔ ∀ l ∈ last, l < key := by
  cases last with
  | none => exact ⟨fun _ ↦ nofun, fun _ ↦ rfl⟩
  | some l =>
    rw [Option.all_some, decide_eq_true_iff]
    exact ⟨fun before _ same ↦ Option.some.inj same ▸ before, fun before ↦ before l rfl⟩

/-- The entry after a key is the first one of all those whose keys are greater. -/
theorem Sorted.after?_eq_some {last : Option String} (sorted : Sorted es) (next : after? last es = some e) :
    e ∈ es ∧ (∀ l ∈ last, l < e.1) ∧ ∀ f ∈ es, (∀ l ∈ last, l < f.1) → e.1 ≤ f.1 := by
  obtain ⟨beyond, before, behind, rfl, earlier⟩ := List.find?_eq_some_iff_append.mp next
  refine ⟨List.mem_append_right _ List.mem_cons_self, all_lt_iff.mp beyond, fun f among beyond' ↦ ?_⟩
  rcases List.mem_append.mp among with first | later
  · have short := earlier f first
    rw [all_lt_iff.mpr beyond'] at short
    cases short
  · rcases List.mem_cons.mp later with rfl | later
    · exact le_refl _
    · exact le_of_lt ((List.pairwise_cons.mp (List.pairwise_append.mp sorted).2.1).1 f later)

/-- There is no entry after a key if no key is greater. -/
theorem after?_eq_none {last : Option String} (next : after? last es = none) (mem : e ∈ es) :
    ∃ l ∈ last, e.1 ≤ l := by
  have short := mt all_lt_iff.mpr (List.find?_eq_none.mp next e mem)
  push Not at short
  exact short

/-! ## Many insertions -/

theorem ofList_concat (sent : List (String × α)) (e : String × α) :
    ofList (sent ++ [e]) = insert e.1 e.2 (ofList sent) := by
  simp [ofList]

/-- Every entry that was put is one of those that came. -/
theorem mem_of_mem_ofList {sent : List (String × α)} (mem : e ∈ ofList sent) : e ∈ sent := by
  induction sent using List.reverseRecOn with
  | nil => cases mem
  | append_singleton sent f ih =>
    rw [ofList_concat] at mem
    rcases mem_of_mem_insert mem with rfl | before
    · exact List.mem_append_right _ List.mem_cons_self
    · exact List.mem_append_left _ (ih before)

theorem length_ofList_le (sent : List (String × α)) : (ofList sent).length ≤ sent.length := by
  induction sent using List.reverseRecOn with
  | nil => exact Nat.le_refl _
  | append_singleton sent f ih =>
    rw [ofList_concat, List.length_append]
    exact (length_insert_le _ _ _).trans (Nat.succ_le_succ ih)

theorem sorted_ofList (sent : List (String × α)) : Sorted (ofList sent) := by
  induction sent using List.reverseRecOn with
  | nil => exact .nil
  | append_singleton sent f ih =>
    rw [ofList_concat]
    exact ih.insert _ _

/-- Entries under distinct keys are all there. -/
theorem perm_ofList {sent : List (String × α)} (distinct : (sent.map Prod.fst).Nodup) :
    (ofList sent).Perm sent := by
  induction sent using List.reverseRecOn with
  | nil => exact .refl _
  | append_singleton sent f ih =>
    rw [List.map_append, List.map_singleton] at distinct
    obtain ⟨others, -, apart⟩ := List.nodup_append.mp distinct
    have new : f.1 ∉ (ofList sent).map Prod.fst := by
      rw [((ih others).map Prod.fst).mem_iff]
      exact fun again ↦ apart f.1 again f.1 List.mem_cons_self rfl
    rw [ofList_concat]
    exact (perm_insert new f.2).trans (((ih others).cons f).trans (List.perm_append_singleton f sent).symm)

/-- Entries under distinct keys can come in any order. -/
theorem ofList_perm {sent other : List (String × α)} (perm : sent.Perm other)
    (distinct : (sent.map Prod.fst).Nodup) : ofList sent = ofList other := by
  refine perm.foldl_eq' ?_ []
  intro e first f second es
  by_cases same : e.1 = f.1
  · rw [List.inj_on_of_nodup_map distinct first second same]
  · exact insert_comm (Ne.symm same) _ _ _

end Troupe.Entries
