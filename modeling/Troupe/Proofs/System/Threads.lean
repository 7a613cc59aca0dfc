import Troupe.Proofs.Actor.Performance
import Troupe.Proofs.Promise.History
import Troupe.System.Run

/-!
# What a system does in one go

A `System` runs one operation after the other: a promise that is settled hands over all its observers
before anything else happens, and a call runs, settles its promise and lets others in before anything else
happens.  Threads interleave the parts.  The statements about all orders of the parts are made about a
`Promise.Ledger` and about a `Performance`; here each operation of the system is one order of their parts.
-/

namespace Troupe

variable {ι σ : Type}

/-! ## Promises -/

namespace Promise.Ledger

variable {κ : Type}

/-- A call hands over all it has in its hands. -/
theorem handOver_all {l : Ledger κ} {call : Nat} {held : List (κ × Settled)}
    (found : l.hands[call]? = some held) :
    (List.replicate held.length (.handOver call)).foldl step l =
      { l with hands := l.hands.set call [], scheduled := l.scheduled ++ held } := by
  induction held generalizing l with
  | nil =>
    obtain ⟨within, empty⟩ := List.getElem?_eq_some_iff.mp found
    have unchanged : l.hands.set call [] = l.hands := by
      rw [← empty, List.set_getElem_self]
    simp [unchanged]
  | cons next rest ih =>
    have within := (List.getElem?_eq_some_iff.mp found).1
    have moved : l.step (.handOver call) =
        { l with hands := l.hands.set call rest, scheduled := l.scheduled ++ [next] } := by
      simp [step, found]
    rw [List.length_cons, List.replicate_succ, List.foldl_cons, moved,
      ih (by simp [List.getElem?_set_self within])]
    simp

end Promise.Ledger

namespace System

variable {sys : System ι σ}

/-- The scheduler after observers got their results, or are about to. -/
def handedOver (sys : System ι σ) (handed : List (Observer ι × Settled)) :
    Scheduler (Task ι σ) :=
  sys.scheduler.scheduleAll (handed.map fun e ↦ .react e.1 e.2)

/-- A promise that was made is what it was changed to. -/
theorem promise_setIfInBounds {r : PromiseRef} (made : r.index < sys.promises.size)
    (after : Promise (Observer ι)) :
    { sys with promises := sys.promises.setIfInBounds r.index after }.promise r = after := by
  simp [promise, Array.getElem?_setIfInBounds_self_of_lt made]

/-- A promise that was just made is new. -/
theorem promise_newPromise : sys.newPromise.2.promise sys.newPromise.1 = .fresh := by
  simp [newPromise, promise]

open Promise (Ledger Deed)

/-- The parts of settling a promise: its locked section, and the hand-over of every observer. -/
def settleDeeds (o : Outcome Value) (call observers : Nat) : List (Deed (Observer ι)) :=
  .settle o :: List.replicate observers (.handOver call)

/-- Settling a promise does its parts one after the other. -/
theorem settle_eq_deeds {r : PromiseRef} (made : r.index < sys.promises.size)
    {l : Ledger (Observer ι)} (same : l.promise = sys.promise r) (o : Outcome Value) :
    ∃ handed, (sys.settle r o).2.scheduler = sys.handedOver handed ∧
      (settleDeeds o l.hands.length handed.length).foldl Ledger.step l =
        ⟨(sys.settle r o).2.promise r, l.answers ++ [.settled (sys.settle r o).1], l.hands ++ [[]],
          l.scheduled ++ handed⟩ := by
  refine ⟨((sys.promise r).settle o.settled).1.map (·, o.settled), ?_, ?_⟩
  · simp [settle, handedOver, Function.comp_def]
  · have found : (l.step (.settle o)).hands[l.hands.length]? =
        some (((sys.promise r).settle o.settled).1.map (·, o.settled)) := by
      simp [Ledger.step, same]
    rw [settleDeeds, List.foldl_cons, Ledger.handOver_all found]
    simp [Ledger.step, same, settle, promise, Array.getElem?_setIfInBounds_self_of_lt made]

/-- The parts of observing a promise: its locked section, and the hand-over if it is settled. -/
def observeDeeds (k : Observer ι) (call observers : Nat) : List (Deed (Observer ι)) :=
  .observe k :: List.replicate observers (.handOver call)

/-- Observing a promise does its parts one after the other. -/
theorem observe_eq_deeds {r : PromiseRef} (made : r.index < sys.promises.size)
    {l : Ledger (Observer ι)} (same : l.promise = sys.promise r) (k : Observer ι) :
    ∃ handed, (sys.observe r k).scheduler = sys.handedOver handed ∧
      (observeDeeds k l.hands.length handed.length).foldl Ledger.step l =
        ⟨(sys.observe r k).promise r, l.answers, l.hands ++ [[]], l.scheduled ++ handed⟩ := by
  cases now : sys.promise r with
  | pending observers =>
    refine ⟨[], ?_, ?_⟩
    · simp [observe, now, Promise.observe, handedOver, Scheduler.scheduleAll]
    · have after : (sys.observe r k).promise r = .pending (observers ++ [k]) := by
        simp [observe, now, Promise.observe, promise_setIfInBounds made]
      simp [observeDeeds, Ledger.step, same, now, Promise.observe, after]
  | settled first =>
    refine ⟨[(k, first)], ?_, ?_⟩
    · simp [observe, now, Promise.observe, handedOver, schedule, Scheduler.schedule,
        Scheduler.scheduleAll]
    · have after : (sys.observe r k).promise r = .settled first := by
        rw [observe, now]
        exact now
      have found : (l.step (.observe k)).hands[l.hands.length]? = some [(k, first)] := by
        simp [Ledger.step, same, now, Promise.observe]
      rw [observeDeeds, List.foldl_cons, Ledger.handOver_all found]
      simp [Ledger.step, same, now, Promise.observe, after]

/-- Adopting a promise asks whether the adopter is free, and if so observes the other. -/
theorem adopt_eq_deeds {r : PromiseRef} {l : Ledger (Observer ι)} (same : l.promise = sys.promise r)
    (other : PromiseRef) :
    l.step .adopt = ⟨sys.promise r, l.answers ++ [.adopted (sys.adopt r other).1], l.hands ++ [[]],
      l.scheduled⟩ ∧
    (sys.adopt r other).2 = if (sys.adopt r other).1 then sys.observe other (.adopt r) else sys := by
  cases settled : (sys.promise r).isSettled <;> simp [Ledger.step, adopt, same, settled]

/-! ## Actors -/

/-- A performance shows an actor of a system: they agree on the actor, the memory and the promises. -/
structure Shows (sys : System ι σ) (i : Nat) (p : Performance (Memory ι) σ (Observer ι)) : Prop where
  /-- the actor -/
  actor : sys.actors[i]? = some p.actor
  /-- the memory -/
  memory : sys.memory = p.memory
  /-- the promises -/
  promises : sys.promises = p.promises

namespace Shows

variable {i : Nat} {p : Performance (Memory ι) σ (Observer ι)}

/-- Settling a promise changes what is shown as it changes the performance. -/
theorem settle (h : Shows sys i p) (r : PromiseRef) (o : Outcome Value) :
    Shows (sys.settle r o).2 i (p.settle r o) := by
  refine ⟨h.actor, h.memory, ?_⟩
  simp [System.settle, Performance.settle, System.promise, Performance.promise, h.promises]

/-- Making a promise changes what is shown as it changes the performance. -/
theorem newPromise (h : Shows sys i p) : Shows sys.newPromise.2 i p.newPromise.2 :=
  ⟨h.actor, h.memory, by simp [System.newPromise, Performance.newPromise, h.promises]⟩

/-- Scheduling the calls that an actor admitted puts them in the hands of the performance. -/
theorem launch (h : Shows sys i p) (admitted : List (Job (Call (Memory ι) σ)))
    (a : Actor (Memory ι) σ) :
    Shows ({ sys with actors := sys.actors.setIfInBounds i a }.launch i admitted) i
      (p.hold admitted a) := by
  have within : i < sys.actors.size := (Array.getElem?_eq_some_iff.mp h.actor).1
  exact ⟨Array.getElem?_setIfInBounds_self_of_lt within, h.memory, h.promises⟩

/-- Sending a message makes its promise, and schedules the admitted calls at once. -/
theorem call (h : Shows sys i p) (cue : Cue) :
    Shows (sys.call i cue.name cue.arguments).2 i (p.send cue) ∧
    (sys.call i cue.name cue.arguments).1 = p.newPromise.1 ∧
    ∃ admitted : List (Job (Call (Memory ι) σ)),
      (p.send cue).turns = p.turns ++ admitted.map (⟨·, .held⟩) ∧
      (sys.call i cue.name cue.arguments).2.scheduler =
        sys.scheduler.scheduleAll (admitted.map (.job i)) := by
  have made : sys.newPromise.1 = p.newPromise.1 := by
    simp [System.newPromise, Performance.newPromise, h.promises]
  have known : sys.newPromise.2.actors[i]?.bind (·.send? cue.name cue.arguments sys.newPromise.1) =
      p.newPromise.2.actor.send? cue.name cue.arguments p.newPromise.1 := by
    rw [made, show sys.newPromise.2.actors[i]? = some p.actor from h.actor]
    rfl
  cases sent : p.newPromise.2.actor.send? cue.name cue.arguments p.newPromise.1 with
  | none =>
    have called : sys.call i cue.name cue.arguments = (sys.newPromise.1,
        (sys.newPromise.2.settle sys.newPromise.1
          (.error (DispatchError.unknownOperation cue.name).message)).2) := by
      rw [sent] at known
      simp only [System.newPromise] at known
      simp [System.call, System.newPromise, known]
    have refused : p.send cue = p.newPromise.2.settle p.newPromise.1
        (.error (DispatchError.unknownOperation cue.name).message) := by
      simp only [Performance.newPromise] at sent
      simp [Performance.send, Performance.newPromise, sent]
    rw [called, refused, ← made]
    refine ⟨h.newPromise.settle _ _, rfl, [], by simp [Performance.newPromise], ?_⟩
    simp only [System.settle, promise_newPromise]
    rfl
  | some answer =>
    have called : sys.call i cue.name cue.arguments = (sys.newPromise.1,
        { sys.newPromise.2 with
          actors := sys.newPromise.2.actors.setIfInBounds i answer.2 }.launch i answer.1) := by
      rw [sent] at known
      simp only [System.newPromise] at known
      simp [System.call, System.newPromise, known]
    have admitted : p.send cue = p.newPromise.2.hold answer.1 answer.2 := by
      simp only [Performance.newPromise] at sent
      simp [Performance.send, Performance.newPromise, sent]
    rw [called, admitted]
    exact ⟨h.newPromise.launch _ _, made, answer.1, rfl, rfl⟩

/-- Looking at the state changes what is shown as it changes the performance. -/
theorem look (h : Shows sys i p) (place : Nat) (job : Job (Call (Memory ι) σ)) :
    Shows { sys with
      memory := (p.actor.perform job.work sys.memory).2.2
      actors := sys.actors.setIfInBounds i (p.actor.perform job.work sys.memory).2.1 } i
      (p.look place job) := by
  have within : i < sys.actors.size := (Array.getElem?_eq_some_iff.mp h.actor).1
  rw [h.memory]
  exact ⟨Array.getElem?_setIfInBounds_self_of_lt within, rfl, h.promises⟩

/-- Running a call lets it look, settles its promise and reports it finished. -/
theorem runJob (h : Shows sys i p) {place : Nat} {job : Job (Call (Memory ι) σ)} (workers : Nat)
    (found : p.turns[place]? = some ⟨job, .started⟩) :
    ∃ p', p.run? workers [.look place, .settle place, .finish place] = some p' ∧
      Shows (sys.runJob i job) i p' := by
  have within : place < p.turns.length := (List.getElem?_eq_some_iff.mp found).1
  have looks : p.step? workers (.look place) = some (p.look place job) := by
    simp only [Performance.step?, found]
  have answered : (p.look place job).turns[place]? =
      some ⟨job, .answered (p.actor.perform job.work p.memory).1⟩ :=
    List.getElem?_set_self within
  have told : (((p.look place job).settle job.work.reply (p.actor.perform job.work p.memory).1).put
      place ⟨job, .settled⟩).turns[place]? = some ⟨job, .settled⟩ :=
    List.getElem?_set_self (by simpa [Performance.look, Performance.put] using within)
  refine ⟨(((p.look place job).settle job.work.reply (p.actor.perform job.work p.memory).1).put place
    ⟨job, .settled⟩).finish place job, ?_, ?_⟩
  · have settles : (p.look place job).step? workers (.settle place) =
        some (((p.look place job).settle job.work.reply (p.actor.perform job.work p.memory).1).put place
          ⟨job, .settled⟩) := by
      simp only [Performance.step?, answered]
    rw [Performance.run?, looks, Option.bind_some, Performance.run?, settles, Option.bind_some,
      Performance.run?, Performance.step?, told]
    rfl
  · have ended := ((h.look place job).settle job.work.reply
      (p.actor.perform job.work sys.memory).1).launch
      ((p.actor.perform job.work sys.memory).2.1.complete job.access).1
      ((p.actor.perform job.work sys.memory).2.1.complete job.access).2
    rw [System.runJob, h.actor]
    rw [h.memory] at ended ⊢
    exact ⟨ended.actor, ended.memory, ended.promises⟩

end Shows

end System

end Troupe
