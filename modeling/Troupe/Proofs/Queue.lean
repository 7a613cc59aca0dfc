import Mathlib.Data.List.Basic
import Troupe.Proofs.Value.Change
import Troupe.Queue

/-!
# Queues lose nothing

Producers and consumers touch a queue in locked sections only.  A producer that pushes a value wakes one of
the consumers that sleep.  A consumer that finds an open queue without values goes to sleep; it may wake up
at any time, to look again.  Whoever closed the queue wakes all, but only after the lock was released, so
other sections may come before that.  A session at a queue is a list of such steps, in any order in which
they can follow each other, with changes of lists and maps by anyone in between; `Session.run?` runs them and
notes what came of each.

`Session.Sound` says what holds between any two sections: what was handed out, followed by what is queued,
is what was accepted (`Session.handed_out_in_order`).
-/

namespace Troupe

namespace Queue

variable {q : Queue Value} {list : ListRef} {h : Heap}

theorem foldl_append (values : List Value) (list : ListRef) (h : Heap) :
    values.foldl (fun h v ↦ h.append list v) h = h.setItems list (h.items list ++ values) := by
  induction values generalizing h with
  | nil => rw [List.foldl_nil, List.append_nil, Heap.setItems_items]
  | cons v rest ih =>
    rw [List.foldl_cons, ih, Heap.append, Heap.setItems_setItems]
    by_cases has : h.Has (.list list)
    · rw [Heap.items_setItems_self has, List.append_assoc]
      rfl
    · -- a list that is not there takes nothing
      rw [Heap.setItems_of_not_has has, Heap.setItems_of_not_has has]

/-- Everything that is queued comes behind the items of the list. -/
theorem drainInto_eq (q : Queue Value) (list : ListRef) (h : Heap) :
    q.drainInto list h =
      (!q.items.isEmpty, { q with items := [] }, h.setItems list (h.items list ++ q.items)) := by
  rw [drainInto]
  split
  · next none => simp [none, Heap.setItems_items, Queue.ext_iff]
  · next some =>
    simp only [drain, foldl_append, List.isEmpty_eq_false_iff.mpr some]
    rfl

/-! ## Sessions -/

/-- One step of a producer or a consumer, or what someone does elsewhere. -/
inductive Deed where
  /-- a value is pushed -/
  | push (x : Value)
  /-- a consumer comes for a value -/
  | come
  /-- a consumer that has come, or was woken, looks for a value -/
  | look
  /-- a consumer wakes up for no reason -/
  | stir
  /-- everything is moved to a list -/
  | drain (list : ListRef)
  /-- the values are counted -/
  | count
  /-- the queue is closed -/
  | close
  /-- someone who closed the queue wakes all consumers -/
  | alarm
  /-- someone changes a list or a map -/
  | change (c : Change)

/-- What came of a step. -/
inductive Happening where
  /-- a value was pushed, and this was answered -/
  | pushed (x : Value) (answer : Bool)
  /-- a consumer left with this -/
  | popped (x : Option Value)
  /-- values were moved to a list and this was answered, and lists and maps were so before and after -/
  | drained (list : ListRef) (values : List Value) (answer : Bool) (before after : Heap)
  /-- this many values were counted -/
  | counted (n : Nat)
  /-- the queue was closed -/
  | closed

/-- What a step put into the queue. -/
def Happening.accepted : Happening → List Value
  | .pushed x true => [x]
  | _ => []

/-- What a step took out of the queue. -/
def Happening.handedOut : Happening → List Value
  | .popped (some x) => [x]
  | .drained _ values _ _ _ => values
  | _ => []

/-- The values whose push was answered with true. -/
def accepted (log : List Happening) : List Value := log.flatMap Happening.accepted

/-- The values that consumers got, in the order in which they got them. -/
def handedOut (log : List Happening) : List Value := log.flatMap Happening.handedOut

/-- What came of a step is what had to come of it after all that had happened. -/
def Explained (before : List Happening) : Happening → Prop
  | .pushed _ answer => answer = true ↔ Happening.closed ∉ before
  | .popped (some x) => ∃ later, accepted before = handedOut before ++ x :: later
  | .popped none => Happening.closed ∈ before ∧ accepted before = handedOut before
  | .drained list values answer h g =>
    accepted before = handedOut before ++ values ∧ (answer = true ↔ values ≠ []) ∧
      g = h.setItems list (h.items list ++ values) ∧ (answer = false → g = h)
  | .counted n => n + (handedOut before).length = (accepted before).length
  | .closed => True

/-- A queue, those who come to it, and what came of their steps. -/
@[ext] structure Session where
  /-- the queue -/
  queue : Queue Value
  /-- all lists and maps -/
  heap : Heap
  /-- how many consumers sleep -/
  asleep : Nat
  /-- how many consumers have come, or were woken, and are about to look -/
  awake : Nat
  /-- how many have closed the queue and are about to wake all consumers -/
  closing : Nat
  /-- what came of the steps, the first one first -/
  log : List Happening

namespace Session

/-- A new queue, where nobody has come yet. -/
def start (h : Heap) : Session := ⟨.empty, h, 0, 0, 0, []⟩

/-- What came of a step is noted. -/
def note (s : Session) (x : Happening) : Session := { s with log := s.log ++ [x] }

/-- One of the consumers that sleep is woken. -/
def wake (s : Session) : Session :=
  if s.asleep = 0 then s else { s with asleep := s.asleep - 1, awake := s.awake + 1 }

/-- A value is pushed, and if it is accepted, a consumer is woken. -/
def push (s : Session) (x : Value) : Session :=
  let (answer, q) := s.queue.push x
  let s := { s with queue := q }.note (.pushed x answer)
  if answer then s.wake else s

/-- A consumer leaves with a value or with the news that nothing will come any more, or it goes to sleep. -/
def look (s : Session) : Session :=
  match s.queue.pop with
  | (.item x, q) => { s with queue := q }.note (.popped (some x))
  | (.ended, q) => { s with queue := q }.note (.popped none)
  | (.waits, q) => { s with queue := q, asleep := s.asleep + 1 }

/-- Everything is moved to a list. -/
def drain (s : Session) (list : ListRef) : Session :=
  let (answer, q, h) := s.queue.drainInto list s.heap
  { s with queue := q, heap := h }.note (.drained list s.queue.items answer s.heap h)

/-- The queue is closed. -/
def close (s : Session) : Session :=
  { s with queue := s.queue.close, closing := s.closing + 1 }.note .closed

/-- All consumers are woken. -/
def alarm (s : Session) : Session :=
  { s with asleep := 0, awake := s.awake + s.asleep, closing := s.closing - 1 }

/-- What comes of one step, if there is someone for it. -/
def step? (s : Session) : Deed → Option Session
  | .push x => some (s.push x)
  | .come => some { s with awake := s.awake + 1 }
  | .look => if s.awake = 0 then none else some { s with awake := s.awake - 1 }.look
  | .stir => if s.asleep = 0 then none else some s.wake
  | .drain list => some (s.drain list)
  | .count => some (s.note (.counted s.queue.count))
  | .close => some s.close
  | .alarm => if s.closing = 0 then none else some s.alarm
  | .change c => some { s with heap := s.heap.change c }

/-- What comes of steps one after the other. -/
def run? (s : Session) : List Deed → Option Session
  | [] => some s
  | d :: rest => (s.step? d).bind fun s ↦ s.run? rest

end Session

/-! ## Logs -/

section Logs

variable {log : List Happening} {x : Happening}

theorem accepted_concat : accepted (log ++ [x]) = accepted log ++ x.accepted := by
  simp [accepted]

theorem handedOut_concat : handedOut (log ++ [x]) = handedOut log ++ x.handedOut := by
  simp [handedOut]

/-- If all that happened had to happen and so had the next, then so had all that has happened now. -/
theorem explained_concat (all : ∀ before y after, log = before ++ y :: after → Explained before y)
    (next : Explained log x) :
    ∀ before y after, log ++ [x] = before ++ y :: after → Explained before y := by
  intro before y after split
  rcases List.eq_nil_or_concat after with rfl | ⟨rest, z, rfl⟩
  · obtain ⟨rfl, same⟩ := List.append_inj' split rfl
    cases same
    exact next
  · rw [List.concat_eq_append, ← List.cons_append, ← List.append_assoc] at split
    obtain ⟨same, -⟩ := List.append_inj' split rfl
    exact all before y rest same

end Logs

/-! ## What holds between any two steps -/

namespace Session

/-- The queue has what was accepted and not yet handed out, and nobody sleeps without a reason. -/
structure Sound (s : Session) : Prop where
  /-- what was handed out and what is queued is what was accepted, in that order -/
  conserved : handedOut s.log ++ s.queue.items = accepted s.log
  /-- the queue is closed if someone closed it -/
  closed : s.queue.closed = true ↔ Happening.closed ∈ s.log
  /-- all that happened had to happen -/
  explained : ∀ before x after, s.log = before ++ x :: after → Explained before x
  /-- consumers sleep only while the queue is open, or someone is about to wake them, and another one is about
  to look for each value -/
  alert : 0 < s.asleep → (s.queue.closed = false ∨ 0 < s.closing) ∧ s.queue.items.length ≤ s.awake

variable {s t : Session}

theorem sound_start (h : Heap) : (start h).Sound where
  conserved := rfl
  closed := by simp [start, Queue.empty]
  explained before x after split := absurd (congrArg List.length split) (by simp [start])
  alert asleep := absurd asleep (Nat.lt_irrefl 0)

/-- A step that is noted moves values from the queue to those who come, or from them to the queue. -/
theorem Sound.note (sound : s.Sound) {x : Happening} (log : t.log = s.log ++ [x])
    (moved : s.queue.items ++ x.accepted = x.handedOut ++ t.queue.items)
    (closed : t.queue.closed = true ↔ s.queue.closed = true ∨ x = .closed)
    (explained : Explained s.log x)
    (alert : 0 < t.asleep → (t.queue.closed = false ∨ 0 < t.closing) ∧ t.queue.items.length ≤ t.awake) :
    t.Sound where
  conserved := by
    rw [log, handedOut_concat, accepted_concat, ← sound.conserved, List.append_assoc,
      List.append_assoc, moved]
  closed := by rw [closed, sound.closed, log, List.mem_append, List.mem_singleton, eq_comm]
  explained := by
    rw [log]
    exact explained_concat sound.explained explained
  alert := alert

@[simp] theorem queue_wake (s : Session) : s.wake.queue = s.queue := by
  rw [wake]
  split <;> rfl

@[simp] theorem log_wake (s : Session) : s.wake.log = s.log := by
  rw [wake]
  split <;> rfl

/-- A consumer that is woken looks after one more value. -/
theorem alert_wake
    (alert : 0 < s.asleep →
      (s.queue.closed = false ∨ 0 < s.closing) ∧ s.queue.items.length ≤ s.awake + 1) :
    0 < s.wake.asleep →
      (s.wake.queue.closed = false ∨ 0 < s.wake.closing) ∧ s.wake.queue.items.length ≤ s.wake.awake := by
  intro asleep
  rw [wake] at asleep ⊢
  split at asleep
  · next nobody => exact absurd asleep (nobody ▸ Nat.lt_irrefl 0)
  · next some =>
    rw [if_neg some]
    exact alert (Nat.pos_of_ne_zero some)

theorem Sound.wake (sound : s.Sound) : s.wake.Sound where
  conserved := by
    rw [log_wake, queue_wake]
    exact sound.conserved
  closed := by
    rw [log_wake, queue_wake]
    exact sound.closed
  explained := by
    rw [log_wake]
    exact sound.explained
  alert := alert_wake fun asleep ↦ (sound.alert asleep).imp_right Nat.le_succ_of_le

theorem Sound.push (sound : s.Sound) (x : Value) : (s.push x).Sound := by
  cases closed : s.queue.closed with
  | true =>
    have pushed : s.push x = s.note (.pushed x false) := by simp [Session.push, closed]
    rw [pushed]
    refine sound.note rfl (List.append_nil _) (by simp [Session.note]) ?_ sound.alert
    simp [Explained, ← sound.closed, closed]
  | false =>
    have pushed : s.push x =
        ({ s with queue := ⟨s.queue.items ++ [x], false⟩ }.note (.pushed x true)).wake := by
      simp [Session.push, Queue.push, closed]
    rw [pushed]
    refine sound.note (log_wake _) ?_ ?_ ?_ (alert_wake ?_)
    · rw [queue_wake]
      rfl
    · simp [Session.note, closed]
    · simp [Explained, ← sound.closed, closed]
    · intro asleep
      obtain ⟨-, fewer⟩ := sound.alert asleep
      refine ⟨.inl rfl, ?_⟩
      simp only [Session.note, List.length_append, List.length_singleton]
      exact Nat.succ_le_succ fewer

/-- A consumer that looks leaves, or it goes to sleep at an open queue without values. -/
theorem Sound.look (sound : s.Sound) : ({ s with awake := s.awake - 1 }.look : Session).Sound := by
  cases items : s.queue.items with
  | cons x rest =>
    have looked : ({ s with awake := s.awake - 1 }.look : Session) =
        { s with awake := s.awake - 1, queue := { s.queue with items := rest } }.note
          (.popped (some x)) := by
      simp [Session.look, pop, items]
    rw [looked]
    refine sound.note rfl (by simp [items, Happening.accepted, Happening.handedOut, Session.note])
      (by simp [Session.note]) ?_ ?_
    · exact ⟨rest, by rw [← sound.conserved, items]⟩
    · intro asleep
      obtain ⟨reason, fewer⟩ := sound.alert asleep
      rw [items, List.length_cons] at fewer
      exact ⟨reason, Nat.le_sub_one_of_lt fewer⟩
  | nil =>
    cases closed : s.queue.closed with
    | true =>
      have looked : ({ s with awake := s.awake - 1 }.look : Session) =
          { s with awake := s.awake - 1 }.note (.popped none) := by
        simp [Session.look, pop, items, closed]
      rw [looked]
      refine sound.note rfl (by simp [Happening.accepted, Happening.handedOut, Session.note])
        (by simp [Session.note]) ?_ ?_
      · exact ⟨sound.closed.mp closed, by rw [← sound.conserved, items, List.append_nil]⟩
      · intro asleep
        refine ⟨(sound.alert asleep).1, ?_⟩
        simp [Session.note, items]
    | false =>
      have looked : ({ s with awake := s.awake - 1 }.look : Session) =
          { s with awake := s.awake - 1, asleep := s.asleep + 1 } := by
        simp [Session.look, pop, items, closed]
      rw [looked]
      refine ⟨sound.conserved, sound.closed, sound.explained, fun _ ↦ ⟨.inl closed, ?_⟩⟩
      rw [items]
      exact Nat.zero_le _

theorem Sound.drain (sound : s.Sound) (list : ListRef) : (s.drain list).Sound := by
  rw [Session.drain, drainInto_eq]
  refine sound.note rfl (by simp [Happening.accepted, Happening.handedOut, Session.note])
    (by simp [Session.note]) ?_ ?_
  · refine ⟨sound.conserved.symm, by simp, rfl, fun nothing ↦ ?_⟩
    have empty : s.queue.items = [] := by simpa using nothing
    rw [empty, List.append_nil, Heap.setItems_items]
  · intro asleep
    exact ⟨(sound.alert asleep).1, Nat.zero_le _⟩

theorem Sound.close (sound : s.Sound) : s.close.Sound := by
  rw [Session.close]
  refine sound.note rfl (List.append_nil _) (by simp [Session.note]) trivial ?_
  intro asleep
  exact ⟨.inr (Nat.succ_pos _), (sound.alert asleep).2⟩

theorem Sound.alarm (sound : s.Sound) : s.alarm.Sound :=
  ⟨sound.conserved, sound.closed, sound.explained, fun asleep ↦ absurd asleep (Nat.lt_irrefl 0)⟩

theorem Sound.count (sound : s.Sound) : (s.note (.counted s.queue.count)).Sound := by
  refine sound.note rfl (List.append_nil _) (by simp [Session.note]) ?_ sound.alert
  rw [Explained, ← sound.conserved, List.length_append, Nat.add_comm]
  rfl

/-- Every step leaves a sound session. -/
theorem Sound.step {d : Deed} (sound : s.Sound) (step : s.step? d = some t) : t.Sound := by
  cases d with
  | push x =>
    cases step
    exact sound.push x
  | come =>
    cases step
    exact ⟨sound.conserved, sound.closed, sound.explained,
      fun asleep ↦ (sound.alert asleep).imp_right Nat.le_succ_of_le⟩
  | look =>
    rw [step?] at step
    split at step
    · cases step
    · cases step
      exact sound.look
  | stir =>
    rw [step?] at step
    split at step
    · cases step
    · cases step
      exact sound.wake
  | drain list =>
    cases step
    exact sound.drain list
  | count =>
    cases step
    exact sound.count
  | close =>
    cases step
    exact sound.close
  | alarm =>
    rw [step?] at step
    split at step
    · cases step
    · cases step
      exact sound.alarm
  | change c =>
    cases step
    exact ⟨sound.conserved, sound.closed, sound.explained, sound.alert⟩

/-- Every run leaves a sound session. -/
theorem Sound.run {deeds : List Deed} (sound : s.Sound) (ran : s.run? deeds = some t) : t.Sound := by
  induction deeds generalizing s with
  | nil =>
    cases ran
    exact sound
  | cons d rest ih =>
    obtain ⟨next, step, ran⟩ := Option.bind_eq_some_iff.mp ran
    exact ih (sound.step step) ran

/-! ## Whole sessions -/

/-- A consumer that looks at a queue with values, or at one that was closed, leaves. -/
theorem exists_step_look (someone : 0 < s.awake) (due : s.queue.items ≠ [] ∨ s.queue.closed = true) :
    ∃ x t, s.step? .look = some t ∧ t.log = s.log ++ [.popped x] := by
  rw [step?, if_neg (Nat.ne_of_gt someone)]
  cases items : s.queue.items with
  | cons x rest => exact ⟨some x, _, rfl, by simp [Session.look, pop, items, Session.note]⟩
  | nil =>
    have closed : s.queue.closed = true := due.resolve_left fun some ↦ some items
    exact ⟨none, _, rfl, by simp [Session.look, pop, items, closed, Session.note]⟩

/-- Whatever producers and consumers do at a new queue, and in whatever order, all values that it accepted
are handed out or queued, once each and in the order in which they were pushed.  It is closed as soon as
someone closed it.  A push is answered with true exactly before that.  A consumer leaves with the oldest
value, and without one only if the queue is closed and has none; everything that is queued comes behind the
items of the list to which it is moved, which stays as it is if there is nothing; and what is counted is
what was accepted and not handed out.  A consumer sleeps only while the queue is open or whoever closed it
is about to wake all, and while another one is about to look for each value; one that looks leaves if there
is a value or the queue is closed. -/
theorem handed_out_in_order {h : Heap} {deeds : List Deed} (ran : (start h).run? deeds = some s) :
    handedOut s.log ++ s.queue.items = accepted s.log ∧
    (s.queue.closed = true ↔ Happening.closed ∈ s.log) ∧
    (∀ before x after, s.log = before ++ x :: after → Explained before x) ∧
    (0 < s.asleep → (s.queue.closed = false ∨ 0 < s.closing) ∧ s.queue.items.length ≤ s.awake) ∧
    (0 < s.awake → s.queue.items ≠ [] ∨ s.queue.closed = true →
      ∃ x t, s.step? .look = some t ∧ t.log = s.log ++ [.popped x]) := by
  have sound := (sound_start h).run ran
  exact ⟨sound.conserved, sound.closed, sound.explained, sound.alert, exists_step_look⟩

/-- A consumer sleeps until values come, another one moves the rest to a list, and a third one sleeps until
the queue is closed. -/
def exchange : List Deed :=
  [.come, .look, .push (.int 1), .push (.int 2), .push (.int 3), .look, .drain ⟨0⟩, .drain ⟨0⟩,
    .come, .look, .close, .push (.int 4), .alarm, .look, .count]

theorem handed_out_in_order_exchange : ∃ s, (start ⟨#[[.null]], #[]⟩).run? exchange = some s ∧
    s.heap.items ⟨0⟩ = [.null, .int 2, .int 3] ∧
    handedOut s.log = [.int 1, .int 2, .int 3] ∧ handedOut s.log ++ s.queue.items = accepted s.log ∧
    Happening.closed ∈ s.log := by
  refine ⟨_, rfl, rfl, rfl, ?_, ?_⟩
  · exact (@handed_out_in_order _ ⟨#[[.null]], #[]⟩ exchange rfl).1
  · exact (@handed_out_in_order _ ⟨#[[.null]], #[]⟩ exchange rfl).2.1.mp rfl

end Session

end Queue

end Troupe
