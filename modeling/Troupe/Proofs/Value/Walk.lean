import Mathlib.Data.List.Infix
import Troupe.Proofs.Text
import Troupe.Proofs.Value.Change

/-!
# Walks over maps that change

A cursor walks over a map, and between any two calls of it anyone may change any list or map: keys are put
before and after the place of the cursor, the key that it stands on is removed, and so on.  A `Walk` notes
what the calls have answered so far.

The keys that are produced increase (`Walk.Sound`).  A key that has been in the map all the time either has
been produced or still lies ahead (`Walk.Awaits`).  So when a call answers that nothing is left, all such
keys have been produced, once each (`Walk.ordered_and_complete`).
-/

namespace Troupe

/-- A walk over a map. -/
@[ext] structure Walk where
  /-- all lists and maps, as they are now -/
  heap : Heap
  /-- the cursor -/
  cursor : MapCursor
  /-- what the calls have answered, the first one first -/
  produced : List (String × Value)

namespace Walk

/-- What happens during a walk. -/
inductive Event where
  /-- the cursor is asked for the next entry -/
  | next
  /-- someone changes a list or a map -/
  | change (c : Change)
deriving DecidableEq, Repr

/-- A walk that begins. -/
def start (h : Heap) (r : MapRef) : Walk := ⟨h, ⟨r, none⟩, []⟩

/-- What a call would answer now. -/
def answer (w : Walk) : Option (String × Value) := (w.cursor.next w.heap).1

/-- The keys that were produced, the first one first. -/
def visited (w : Walk) : List String := w.produced.map Prod.fst

/-- The walk after one event. -/
def step (w : Walk) : Event → Walk
  | .next => { w with cursor := (w.cursor.next w.heap).2, produced := w.produced ++ w.answer.toList }
  | .change c => { w with heap := w.heap.change c }

/-- The walk after some events. -/
def run (w : Walk) (events : List Event) : Walk := events.foldl step w

theorem run_concat (w : Walk) (events : List Event) (e : Event) :
    w.run (events ++ [e]) = (w.run events).step e := by
  rw [run, List.foldl_concat, run]

variable {w : Walk} {h : Heap} {r : MapRef} {key : String}

/-! ## One call -/

theorem answer_eq (w : Walk) : w.answer = Entries.after? w.cursor.last (w.heap.entries w.cursor.map) := by
  rw [answer, MapCursor.next]
  split <;> simp_all

/-- A call that answers with an entry leaves the cursor on its key. -/
theorem step_next_of_some {e : String × Value} (answer : w.answer = some e) :
    w.step .next =
      { w with cursor := { w.cursor with last := some e.1 }, produced := w.produced ++ [e] } := by
  have found := w.answer_eq.symm.trans answer
  rw [step, answer, MapCursor.next, found]
  rfl

/-- A call that answers that nothing is left changes nothing. -/
theorem step_next_of_none (answer : w.answer = none) : w.step .next = w := by
  have found := w.answer_eq.symm.trans answer
  rw [step, answer, MapCursor.next, found, Option.toList_none, List.append_nil]

/-! ## What holds all the time -/

/-- A change leaves the entries of a map in key order. -/
theorem sorted_change (has : h.Has (.map r)) (sorted : Entries.Sorted (h.entries r)) (c : Change) :
    Entries.Sorted ((h.change c).entries r) := by
  by_cases there : c.target? = some (.map r)
  · cases c with
    | put r' key v =>
      cases there
      rw [Heap.change, Heap.put, Heap.entries_setEntries_self has]
      exact sorted.insert key v
    | remove r' key =>
      cases there
      rw [Heap.change, Heap.remove]
      split
      · rw [Heap.entries_setEntries_self has]
        exact sorted.erase key
      · exact sorted
    | newList | newMap | append | replace | insertBefore | resize => cases there
  · have same : (h.change c).entries r = h.entries r := (h.effect_change c).sameAt has there
    rw [same]
    exact sorted

/-- The cursor stands on the last key produced, and the keys produced increase. -/
structure Sound (r : MapRef) (w : Walk) : Prop where
  /-- the cursor is one of this map -/
  map : w.cursor.map = r
  /-- the map is there -/
  has : w.heap.Has (.map r)
  /-- its entries are in key order -/
  sorted : Entries.Sorted (w.heap.entries r)
  /-- the cursor stands on the last key produced -/
  last : w.cursor.last = w.visited.getLast?
  /-- no key is produced after a greater one, or after itself -/
  increasing : w.visited.Pairwise (· < ·)

theorem sound_start (has : h.Has (.map r)) (sorted : Entries.Sorted (h.entries r)) :
    (start h r).Sound r :=
  ⟨rfl, has, sorted, rfl, .nil⟩

namespace Sound

variable (sound : w.Sound r)
include sound

/-- The answer is the first entry whose key is greater than all keys produced. -/
theorem answer_eq_some {e : String × Value} (answer : w.answer = some e) :
    e ∈ w.heap.entries r ∧ (∀ l ∈ w.cursor.last, l < e.1) ∧
      ∀ f ∈ w.heap.entries r, (∀ l ∈ w.cursor.last, l < f.1) → e.1 ≤ f.1 := by
  have found := w.answer_eq.symm.trans answer
  rw [sound.map] at found
  exact sound.sorted.after?_eq_some found

/-- Nothing is left only if no key is greater than the last one produced. -/
theorem answer_eq_none (answer : w.answer = none) {e : String × Value} (mem : e ∈ w.heap.entries r) :
    ∃ l ∈ w.cursor.last, e.1 ≤ l := by
  have found := w.answer_eq.symm.trans answer
  rw [sound.map] at found
  exact Entries.after?_eq_none found mem

/-- All keys produced are at most the last one. -/
theorem le_last {l k : String} (last : l ∈ w.cursor.last) (mem : k ∈ w.visited) : k ≤ l := by
  obtain ⟨before, shape⟩ : ∃ before, w.visited = before ++ [l] :=
    List.getLast?_eq_some_iff.mp (sound.last.symm.trans last)
  have increasing := sound.increasing
  rw [shape] at mem increasing
  rcases List.mem_append.mp mem with earlier | latest
  · exact le_of_lt ((List.pairwise_append.mp increasing).2.2 k earlier l List.mem_cons_self)
  · exact (List.mem_singleton.mp latest).le

theorem next : (w.step .next).Sound r := by
  cases answer : w.answer with
  | none =>
    rw [step_next_of_none answer]
    exact sound
  | some e =>
    obtain ⟨-, beyond, -⟩ := sound.answer_eq_some answer
    have visited : (w.step .next).visited = w.visited ++ [e.1] := by
      rw [step_next_of_some answer]
      simp [Walk.visited]
    rw [step_next_of_some answer] at visited ⊢
    refine ⟨sound.map, sound.has, sound.sorted, ?_, ?_⟩
    · rw [visited, List.getLast?_concat]
    · rw [visited, List.pairwise_append]
      refine ⟨sound.increasing, List.pairwise_singleton _ _, ?_⟩
      intro k mem k' latest
      obtain rfl := List.mem_singleton.mp latest
      -- The last key produced is between this one and the new one.
      cases last : w.cursor.last with
      | none =>
        have nothing : w.visited = [] := List.getLast?_eq_none_iff.mp (sound.last.symm.trans last)
        rw [nothing] at mem
        cases mem
      | some l => exact lt_of_le_of_lt (sound.le_last last mem) (beyond l last)

theorem step (e : Event) : (w.step e).Sound r := by
  cases e with
  | next => exact sound.next
  | change c =>
    exact ⟨sound.map, (w.heap.effect_change c).grows.has sound.has, sorted_change sound.has sound.sorted c,
      sound.last, sound.increasing⟩

theorem run (events : List Event) : (w.run events).Sound r := by
  induction events using List.reverseRecOn with
  | nil => exact sound
  | append_singleton earlier e ih =>
    rw [run_concat]
    exact ih.step e

end Sound

/-! ## Keys that stay -/

/-- A key has been produced, or it lies ahead. -/
def Awaits (w : Walk) (key : String) : Prop := key ∈ w.visited ∨ ∀ l ∈ w.cursor.last, l < key

/-- A key that is in the map is not passed over. -/
theorem Awaits.step (awaits : w.Awaits key) (sound : w.Sound r)
    (stays : key ∈ Entries.keys (w.heap.entries r)) (e : Event) : (w.step e).Awaits key := by
  cases e with
  | change c => exact awaits
  | next =>
    cases answer : w.answer with
    | none =>
      rw [step_next_of_none answer]
      exact awaits
    | some e =>
      rw [step_next_of_some answer]
      rcases awaits with produced | ahead
      · exact .inl (by simpa [Walk.visited] using Or.inl produced)
      · obtain ⟨f, among, rfl⟩ := List.mem_map.mp stays
        rcases eq_or_lt_of_le ((sound.answer_eq_some answer).2.2 f among ahead) with same | before
        · exact .inl (by simp [Walk.visited, same])
        · refine .inr fun l last ↦ ?_
          obtain rfl := Option.some.inj last
          exact before

/-- A key that is in the map all the time is not passed over. -/
theorem awaits_run {events : List Event} (sound : w.Sound r) (awaits : w.Awaits key)
    (stays : ∀ earlier, earlier <+: events → key ∈ Entries.keys ((w.run earlier).heap.entries r)) :
    (w.run events).Awaits key := by
  induction events using List.reverseRecOn with
  | nil => exact awaits
  | append_singleton earlier e ih =>
    have before : earlier <+: earlier ++ [e] := List.prefix_append _ _
    rw [run_concat]
    exact (ih fun first part ↦ stays first (part.trans before)).step (sound.run earlier) (stays earlier before) e

/-- However calls of a cursor and changes of lists and maps alternate, the keys that are produced increase
strictly in the order of their bytes, and a call answers with an entry that is in the map at that moment.
When a call answers that nothing is left, all keys that are in the map at that moment are at most the last one
produced, and each key that was in the map from the beginning until then has been produced exactly once. -/
theorem ordered_and_complete (has : h.Has (.map r)) (sorted : Entries.Sorted (h.entries r))
    (events : List Event) :
    let w := (start h r).run events
    (w.visited.map Text.encode).Pairwise (· < ·) ∧
    (∀ key v, w.answer = some (key, v) → Entries.find? key (w.heap.entries r) = some v) ∧
    (w.answer = none → ∀ key ∈ Entries.keys (w.heap.entries r),
      ∃ last ∈ w.visited.getLast?, Text.encode key ≤ Text.encode last) ∧
    (w.answer = none → ∀ key,
      (∀ earlier, earlier <+: events → key ∈ Entries.keys (((start h r).run earlier).heap.entries r)) →
      w.visited.count key = 1) := by
  intro w
  have begun := sound_start has sorted
  have sound : w.Sound r := begun.run events
  refine ⟨?_, ?_, ?_, ?_⟩
  · exact List.pairwise_map.mpr (sound.increasing.imp Text.encode_lt_encode.mpr)
  · intro key v answer
    exact sound.sorted.find?_of_mem (sound.answer_eq_some answer).1
  · intro answer key mem
    obtain ⟨e, among, rfl⟩ := List.mem_map.mp mem
    obtain ⟨l, last, at_most⟩ := sound.answer_eq_none answer among
    exact ⟨l, sound.last ▸ last, Text.encode_le_encode.mpr at_most⟩
  · intro answer key stays
    have nodup : w.visited.Nodup := sound.increasing.imp ne_of_lt
    refine List.count_eq_one_of_mem nodup ?_
    have awaits : w.Awaits key := awaits_run begun (.inr nofun) stays
    refine awaits.resolve_right fun ahead ↦ ?_
    obtain ⟨e, among, rfl⟩ := List.mem_map.mp (stays events (List.prefix_refl events))
    obtain ⟨l, last, at_most⟩ := sound.answer_eq_none answer among
    exact absurd (ahead l last) (not_lt_of_ge at_most)

/-- A map with three keys. -/
def shelf : Heap := ⟨#[], #[[("a", .int 1), ("b", .int 2), ("c", .int 3)]]⟩

/-- The first key is removed once it was produced.  Then one key is put before the cursor and another one
behind it, which is removed once it was produced. -/
def stroll : List Event :=
  [.next, .change (.remove ⟨0⟩ "a"), .change (.put ⟨0⟩ "0" .null), .change (.put ⟨0⟩ "bb" (.int 4)),
    .next, .next, .change (.remove ⟨0⟩ "bb"), .next]

theorem ordered_and_complete_stroll :
    shelf.Has (.map ⟨0⟩) ∧ Entries.Sorted (shelf.entries ⟨0⟩) ∧
    ((start shelf ⟨0⟩).run stroll).visited = ["a", "b", "bb", "c"] ∧
    ((start shelf ⟨0⟩).run stroll).answer = none ∧
    ((start shelf ⟨0⟩).run stroll).visited.count "c" = 1 := by
  have has : shelf.Has (.map ⟨0⟩) := by decide
  have sorted : (shelf.entries ⟨0⟩).Pairwise fun a b ↦ a.1 < b.1 := by decide
  have ends : ((start shelf ⟨0⟩).run stroll).answer = none := by decide
  have stays : ∀ earlier ∈ stroll.inits,
      "c" ∈ Entries.keys (((start shelf ⟨0⟩).run earlier).heap.entries ⟨0⟩) := by decide
  obtain ⟨-, -, -, once⟩ := ordered_and_complete has sorted stroll
  refine ⟨has, sorted, by decide, ends, once ends "c" fun earlier part ↦ ?_⟩
  exact stays earlier ((List.mem_inits earlier stroll).mpr part)

end Walk

end Troupe
