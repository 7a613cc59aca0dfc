import Mathlib.Data.List.Infix
import Troupe.Proofs.Value.Change
import Troupe.Proofs.Value.Position
import Troupe.Proofs.Value.Walk

/-!
# Lists are sequences

Through any of its handles a list can be read, replaced, inserted into and resized.  Each of that is what it
is for sequences, at the place that a signed position names, or it is refused and changes nothing
(`Heap.Refines`).

A cursor walks over a list while others append to it and replace its elements.  A `Tour` notes what its calls
have answered.  Each call answers with the element that is then at the next place, so the places are visited
one by one from the front, and a call answers that nothing is left only if all of them were visited
(`Tour.Covers`).
-/

namespace Troupe

/-- A walk over a list. -/
@[ext] structure Tour where
  /-- all lists and maps, as they are now -/
  heap : Heap
  /-- the cursor -/
  cursor : ListCursor
  /-- what the calls have answered, the first one first -/
  produced : List Value

namespace Tour

open Walk (Event)

/-- A walk that begins. -/
def start (h : Heap) (r : ListRef) : Tour := ⟨h, ⟨r, 0⟩, []⟩

/-- What a call would answer now. -/
def answer (t : Tour) : Option Value := (t.cursor.next t.heap).1

/-- The walk after one event. -/
def step (t : Tour) : Event → Tour
  | .next => { t with cursor := (t.cursor.next t.heap).2, produced := t.produced ++ t.answer.toList }
  | .change c => { t with heap := t.heap.change c }

/-- The walk after some events. -/
def run (t : Tour) (events : List Event) : Tour := events.foldl step t

/-- The event is no insertion into the list, and does not resize it. -/
def Steady (r : ListRef) : Event → Prop
  | .change (.insertBefore s _ _) | .change (.resize s _) => s ≠ r
  | _ => True

variable {t : Tour} {h : Heap} {r : ListRef} {events : List Event}

@[simp] theorem run_nil (t : Tour) : t.run [] = t := rfl

theorem run_append (t : Tour) (earlier later : List Event) :
    t.run (earlier ++ later) = (t.run earlier).run later := List.foldl_append

theorem run_cons (t : Tour) (e : Event) (events : List Event) : t.run (e :: events) = (t.step e).run events :=
  rfl

theorem run_concat (t : Tour) (events : List Event) (e : Event) :
    t.run (events ++ [e]) = (t.run events).step e := run_append t events [e]

/-! ## One call -/

theorem answer_eq (t : Tour) : t.answer = (t.heap.items t.cursor.list)[t.cursor.position]? := by
  rw [answer, ListCursor.next]
  split <;> simp_all

/-- A call that answers with an element moves the cursor on. -/
theorem step_next_of_some {v : Value} (answer : t.answer = some v) :
    t.step .next =
      { t with
        cursor := { t.cursor with position := t.cursor.position + 1 }
        produced := t.produced ++ [v] } := by
  have found := t.answer_eq.symm.trans answer
  rw [step, answer, ListCursor.next, found]
  rfl

/-- A call that answers that nothing is left changes nothing. -/
theorem step_next_of_none (answer : t.answer = none) : t.step .next = t := by
  have found := t.answer_eq.symm.trans answer
  rw [step, answer, ListCursor.next, found, Option.toList_none, List.append_nil]

/-! ## What holds all the time -/

/-- A list does not become shorter, unless it is resized or inserted into. -/
theorem length_le_change (has : h.Has (.list r)) {c : Change} (steady : Steady r (.change c)) :
    (h.items r).length ≤ ((h.change c).items r).length := by
  by_cases there : c.target? = some (.list r)
  · cases c with
    | append s v =>
      cases there
      rw [Heap.change, Heap.append, Heap.items_setItems_self has, List.length_append]
      exact Nat.le_add_right _ _
    | replace s position v =>
      cases there
      rw [Heap.change, Heap.replace]
      split
      · next xs set =>
        obtain ⟨i, -, rfl⟩ := Option.map_eq_some_iff.mp set
        rw [Heap.items_setItems_self has, List.length_set]
      · exact Nat.le_refl _
    | insertBefore s position v | resize s size =>
      cases there
      exact absurd rfl steady
    | newList | newMap | put | remove => cases there
  · have same : (h.change c).items r = h.items r := (h.effect_change c).sameAt has there
    rw [same]

/-- The cursor has produced one element for each place that it has passed. -/
structure Sound (r : ListRef) (t : Tour) : Prop where
  /-- the cursor is one of this list -/
  list : t.cursor.list = r
  /-- the list is there -/
  has : t.heap.Has (.list r)
  /-- as many elements were produced as places were passed -/
  count : t.cursor.position = t.produced.length
  /-- no places were passed that the list does not have -/
  within : t.produced.length ≤ (t.heap.items r).length

theorem sound_start (has : h.Has (.list r)) : (start h r).Sound r := ⟨rfl, has, rfl, Nat.zero_le _⟩

namespace Sound

variable (sound : t.Sound r)
include sound

/-- A call answers with what is at the first place that was not passed. -/
theorem answer_eq : t.answer = (t.heap.items r)[t.produced.length]? := by
  rw [t.answer_eq, sound.list, sound.count]

theorem next : (t.step .next).Sound r := by
  cases answer : t.answer with
  | none =>
    rw [step_next_of_none answer]
    exact sound
  | some v =>
    have inside := (List.getElem?_eq_some_iff.mp (sound.answer_eq.symm.trans answer)).1
    rw [step_next_of_some answer]
    refine ⟨sound.list, sound.has, ?_, ?_⟩
    · rw [List.length_append, List.length_singleton, ← sound.count]
    · rwa [List.length_append, List.length_singleton]

theorem step {e : Event} (steady : Steady r e) : (t.step e).Sound r := by
  cases e with
  | next => exact sound.next
  | change c =>
    exact ⟨sound.list, (t.heap.effect_change c).grows.has sound.has, sound.count,
      sound.within.trans (length_le_change sound.has steady)⟩

theorem run (steady : ∀ e ∈ events, Steady r e) : (t.run events).Sound r := by
  induction events using List.reverseRecOn with
  | nil => exact sound
  | append_singleton earlier e ih =>
    rw [List.forall_mem_append] at steady
    rw [run_concat]
    exact (ih steady.1).step (steady.2 e List.mem_cons_self)

/-- Calls in a row answer with the elements that are left. -/
theorem produced_replicate (n : Nat) :
    (t.run (List.replicate n .next)).produced =
      t.produced ++ ((t.heap.items r).drop t.produced.length).take n := by
  induction n generalizing t with
  | zero => rw [List.replicate_zero, run_nil, List.take_zero, List.append_nil]
  | succ n ih =>
    rw [List.replicate_succ, run_cons, ih sound.next]
    cases answer : t.answer with
    | none =>
      have passed := List.getElem?_eq_none_iff.mp (sound.answer_eq.symm.trans answer)
      rw [step_next_of_none answer, List.drop_eq_nil_of_le passed, List.take_nil, List.take_nil]
    | some v =>
      obtain ⟨inside, here⟩ := List.getElem?_eq_some_iff.mp (sound.answer_eq.symm.trans answer)
      rw [step_next_of_some answer, List.drop_eq_getElem_cons inside, here, List.take_succ_cons,
        List.length_append, List.length_singleton, List.append_assoc, List.singleton_append]

end Sound

/-! ## All calls -/

/-- A call was made when as many elements as `i` were produced, and then the element was at place `i`. -/
def Finds (r : ListRef) (t : Tour) (events : List Event) (i : Nat) (x : Value) : Prop :=
  ∃ before after, events = before ++ .next :: after ∧ (t.run before).produced.length = i ∧
    ((t.run before).heap.items r)[i]? = some x

/-- What a cursor does on its way over a list that others append to and replace elements of. -/
structure Covers (r : ListRef) (t : Tour) (events : List Event) : Prop where
  /-- the places are visited from the front, each once, and with the element that is there at the time -/
  produced : ∀ i x, (t.run events).produced[i]? = some x ↔ t.Finds r events i x
  /-- nothing is left only if all places were visited -/
  ended : (t.run events).answer = none ↔
    (t.run events).produced.length = ((t.run events).heap.items r).length
  /-- calls in a row visit the places that are left -/
  rest : ∀ n, ((t.run events).run (List.replicate n .next)).produced = (t.run events).produced ++
    (((t.run events).heap.items r).drop (t.run events).produced.length).take n

theorem not_finds_nil (i : Nat) (x : Value) : ¬ t.Finds r [] i x := by
  rintro ⟨before, after, split, -⟩
  exact List.append_ne_nil_of_right_ne_nil before (List.cons_ne_nil _ after) split.symm

/-- The last of some events may be a call that finds something. -/
theorem finds_concat_iff (e : Event) (i : Nat) (x : Value) :
    t.Finds r (events ++ [e]) i x ↔ t.Finds r events i x ∨
      e = .next ∧ (t.run events).produced.length = i ∧ ((t.run events).heap.items r)[i]? = some x := by
  constructor
  · rintro ⟨before, after, split, length, found⟩
    rcases List.eq_nil_or_concat after with rfl | ⟨later, last, rfl⟩
    · obtain ⟨rfl, same⟩ := List.append_inj' split rfl
      cases same
      exact .inr ⟨rfl, length, found⟩
    · rw [List.concat_eq_append, ← List.cons_append, ← List.append_assoc] at split
      obtain ⟨rfl, -⟩ := List.append_inj' split rfl
      exact .inl ⟨before, later, rfl, length, found⟩
  · rintro (⟨before, after, rfl, length, found⟩ | ⟨rfl, length, found⟩)
    · exact ⟨before, after ++ [e], by rw [List.append_assoc, List.cons_append], length, found⟩
    · exact ⟨events, [], rfl, length, found⟩

theorem getElem?_append_toList {xs : List Value} {o : Option Value} {i : Nat} {x : Value} :
    (xs ++ o.toList)[i]? = some x ↔ xs[i]? = some x ∨ xs.length = i ∧ o = some x := by
  cases o with
  | none => simp
  | some v =>
    rcases Nat.lt_trichotomy i xs.length with before | rfl | behind
    · rw [List.getElem?_append_left before, or_iff_left fun last ↦ Nat.ne_of_gt before last.1]
    · simp
    · rw [List.getElem?_eq_none (by simpa using Nat.succ_le_of_lt behind),
        List.getElem?_eq_none (Nat.le_of_lt behind)]
      exact iff_of_false nofun fun either ↦ either.elim nofun fun last ↦ Nat.ne_of_lt behind last.1

theorem produced_eq_some_iff (has : h.Has (.list r)) (steady : ∀ e ∈ events, Steady r e) (i : Nat)
    (x : Value) : ((start h r).run events).produced[i]? = some x ↔ (start h r).Finds r events i x := by
  induction events using List.reverseRecOn with
  | nil => exact iff_of_false nofun (not_finds_nil i x)
  | append_singleton earlier e ih =>
    rw [List.forall_mem_append] at steady
    have sound := (sound_start has).run steady.1
    rw [finds_concat_iff, ← ih steady.1, run_concat]
    cases e with
    | change c => simp [step]
    | next =>
      have answered : ((start h r).run earlier).produced.length = i →
          (((start h r).run earlier).answer = some x ↔
            (((start h r).run earlier).heap.items r)[i]? = some x) := by
        rintro rfl
        rw [sound.answer_eq]
      rw [step, getElem?_append_toList, and_congr_right answered, and_iff_right rfl]

theorem covers (has : h.Has (.list r)) (steady : ∀ e ∈ events, Steady r e) :
    (start h r).Covers r events := by
  have sound := (sound_start has).run steady
  refine ⟨produced_eq_some_iff has steady, ?_, sound.produced_replicate⟩
  rw [sound.answer_eq, List.getElem?_eq_none_iff]
  exact ⟨fun passed ↦ Nat.le_antisymm sound.within passed, fun all ↦ all.ge⟩

end Tour

namespace Heap

open Sequence (Within place)

variable {h g : Heap} {r : ListRef}

/-- Another heap, in which one list has other items and all else is as it was. -/
structure Rewrites (h : Heap) (r : ListRef) (xs : List Value) (g : Heap) : Prop where
  /-- the list has the items -/
  here : g.items r = xs
  /-- other lists are as they were -/
  others : ∀ s, s ≠ r → g.items s = h.items s
  /-- maps are as they were -/
  maps : g.maps = h.maps

theorem rewrites_setItems (has : h.Has (.list r)) (xs : List Value) : h.Rewrites r xs (h.setItems r xs) :=
  ⟨items_setItems_self has xs, fun _ apart ↦ items_setItems_of_ne apart xs, rfl⟩

/-- What the operations on a list do, told of its items as a sequence.  Positions count from the front, or
from the end if they are negative. -/
structure Refines (h : Heap) (r : ListRef) : Prop where
  /-- each position of an element finds it -/
  find : ∀ position, Within position (h.items r).length → ∃ x,
    (h.items r)[place position (h.items r).length]? = some x ∧
      Sequence.find? position (h.items r) = some x
  /-- other positions find nothing -/
  find_none : ∀ position, ¬ Within position (h.items r).length →
    Sequence.find? position (h.items r) = none
  /-- the element at a position is replaced, and all others stay -/
  replace : ∀ position v, Within position (h.items r).length → ∃ g, h.replace r position v = (true, g) ∧
    h.Rewrites r ((h.items r).set (place position (h.items r).length) v) g
  /-- nothing is replaced at other positions -/
  replace_none : ∀ position v, ¬ Within position (h.items r).length → h.replace r position v = (false, h)
  /-- an element is inserted before the one at a position, or behind the last one -/
  insert : ∀ position v,
    -((h.items r).length : Int) ≤ position.toInt → position.toInt ≤ ((h.items r).length : Int) →
      ∃ g, h.insertBefore r position v = (true, g) ∧
        h.Rewrites r ((h.items r).insertIdx (place position (h.items r).length) v) g
  /-- nothing is inserted at other positions -/
  insert_none : ∀ position v,
    position.toInt < -((h.items r).length : Int) ∨ ((h.items r).length : Int) < position.toInt →
      h.insertBefore r position v = (false, h)
  /-- a list is cut to a size, or padded with nulls -/
  resize : ∀ size, ∃ xs, h.Rewrites r xs (h.resize r size) ∧ xs.length = size ∧
    ∀ i < size, xs[i]? = some ((h.items r)[i]?.getD .null)
  /-- a cursor visits the places one by one while others append and replace -/
  walk : ∀ events, (∀ e ∈ events, Tour.Steady r e) → (Tour.start h r).Covers r events

/-- A list is a sequence in all that is done to it, for every content and every position. -/
theorem refines_sequence (has : h.Has (.list r)) : h.Refines r where
  find position within := by
    have inside := Sequence.place_lt within
    refine ⟨_, List.getElem?_eq_getElem inside, ?_⟩
    rw [Sequence.find?_eq, if_pos within, List.getElem?_eq_getElem inside]
  find_none position outside := by rw [Sequence.find?_eq, if_neg outside]
  replace position v within := by
    refine ⟨_, ?_, rewrites_setItems has _⟩
    rw [Heap.replace, Sequence.set?_eq, if_pos within]
  replace_none position v outside := by rw [Heap.replace, Sequence.set?_eq, if_neg outside]
  insert position v low high := by
    refine ⟨_, ?_, rewrites_setItems has _⟩
    rw [insertBefore, Sequence.insert?_eq, if_pos ⟨low, high⟩]
  insert_none position v outside := by
    rw [insertBefore, Sequence.insert?_eq, if_neg (by omega)]
  resize size := by
    exact ⟨_, rewrites_setItems has _, Sequence.length_resize .null size (h.items r),
      fun i below ↦ Sequence.getElem?_resize Value.null below⟩
  walk events steady := Tour.covers has steady

/-- A list, and another list that holds it. -/
def wares : Heap := ⟨#[[.int 10, .int 20, .int 30], [.list ⟨0⟩]], #[]⟩

/-- The last element is replaced before the cursor comes to it and one more is appended, while the other
list is resized. -/
def inspection : List Walk.Event :=
  [.next, .change (.replace ⟨0⟩ (-1) (.int 33)), .next, .change (.append ⟨0⟩ (.int 40)),
    .change (.resize ⟨1⟩ 0), .next, .change (.replace ⟨0⟩ 0 .null), .next, .next]

theorem refines_sequence_wares :
    wares.Has (.list ⟨0⟩) ∧ Sequence.find? (-3) (wares.items ⟨0⟩) = some (.int 10) ∧
      Sequence.find? Int64.minValue (wares.items ⟨0⟩) = none ∧
      (∃ g, wares.insertBefore ⟨0⟩ 3 (.int 40) = (true, g) ∧
        g.items ⟨0⟩ = [.int 10, .int 20, .int 30, .int 40]) ∧
      ((Tour.start wares ⟨0⟩).run inspection).produced = [.int 10, .int 20, .int 33, .int 40] ∧
      ((Tour.start wares ⟨0⟩).run inspection).answer = none := by
  have has : wares.Has (.list ⟨0⟩) := by decide
  have steady : ∀ e ∈ inspection, Tour.Steady ⟨0⟩ e := by simp [inspection, Tour.Steady]
  have refines := refines_sequence has
  obtain ⟨x, there, found⟩ := refines.find (-3) (by decide)
  obtain ⟨g, inserted, rewrites⟩ := refines.insert 3 (.int 40) (by decide) (by decide)
  obtain rfl := Option.some.inj there
  refine ⟨has, found, refines.find_none _ (by decide), ⟨g, inserted, rewrites.here⟩, by decide, ?_⟩
  exact (refines.walk inspection steady).ended.mpr (by decide)

end Heap

end Troupe
