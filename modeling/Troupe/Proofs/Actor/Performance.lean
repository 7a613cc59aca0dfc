import Mathlib.Algebra.GroupWithZero.Nat
import Troupe.Actor.Basic
import Troupe.Proofs.Dispatch.Traffic

/-!
# Performances

An actor at work among several workers.  `System.call` and `System.runJob` do in one go what the threads of
a pool do bit by bit (`System.Shows`), while other threads go on: a message is sent and the admitted calls
are handed over to the scheduler, a worker takes a call, its function looks at the state, the promise is
settled, and the job is reported finished, which may admit further calls.  `Performance.step?` has one event
for each bit, so a list of events is one order in which the threads may come to do theirs.

* A message counts as sent when its job is put into the dispatch queue.
* A function that reads holds the state while it runs, and so does one that writes; so each runs at one
  instant, which may be any between its start and its report.
* A promise that is settled hands its observers over as tasks of their own.  They are left out here, like
  all tasks of the scheduler that are not calls of the actor.

A performance that goes on comes to an end (`exists_run_done`): as long as a call is at work, something can
be done about one of them.
-/

namespace Troupe

variable {μ σ κ : Type}

/-- A message as it is sent to an actor. -/
structure Cue where
  /-- the name of an operation -/
  name : String
  /-- the arguments -/
  arguments : List Value
deriving Repr

/-- How far an admitted call has come. -/
inductive Progress where
  /-- in the hands of the thread that admitted it -/
  | held
  /-- handed over to the scheduler -/
  | scheduled
  /-- taken by a worker -/
  | started
  /-- looked at the state, with an outcome that its promise does not know yet -/
  | answered (o : Outcome Value)
  /-- the promise was told -/
  | settled
deriving DecidableEq, Repr

/-- The function of a call has run. -/
def Progress.looked : Progress → Bool
  | .answered _ | .settled => true
  | _ => false

/-- A worker is busy with a call. -/
def Progress.busy : Progress → Bool
  | .held | .scheduled => false
  | _ => true

/-- An admitted call that is not finished. -/
structure Turn (μ σ : Type) where
  /-- the call with its access -/
  job : Job (Call μ σ)
  /-- how far it has come -/
  progress : Progress

/-- The promise that a turn is to settle. -/
def Turn.reply (turn : Turn μ σ) : PromiseRef := turn.job.work.reply

/-- An actor, what its functions share with others, the promises made so far, and the calls at work. -/
structure Performance (μ σ κ : Type) where
  /-- the actor -/
  actor : Actor μ σ
  /-- what functions share beyond the state -/
  memory : μ
  /-- the promises made so far -/
  promises : Array (Promise κ)
  /-- the calls admitted and not yet finished -/
  turns : List (Turn μ σ)
  /-- every attempt to settle a promise and whether the promise took it, the oldest first -/
  settlements : List (PromiseRef × Bool)

namespace Performance

/-- What a thread does to an actor at one instant. -/
inductive Event (κ : Type) where
  /-- a message is sent, by a call at work or by anybody else -/
  | send (cue : Cue)
  /-- a promise is observed -/
  | observe (p : PromiseRef) (k : κ)
  /-- an admitted call is handed over to the scheduler -/
  | handOver (place : Nat)
  /-- a free worker takes a call -/
  | start (place : Nat)
  /-- the function of a call runs on the state -/
  | look (place : Nat)
  /-- the promise of a call is told the outcome -/
  | settle (place : Nat)
  /-- a call is reported finished -/
  | finish (place : Nat)

/-- An actor to which nothing was sent yet. -/
def ofActor (actor : Actor μ σ) (memory : μ) : Performance μ σ κ := ⟨actor, memory, #[], [], []⟩

/-- A promise as it is now. -/
def promise (p : Performance μ σ κ) (r : PromiseRef) : Promise κ := p.promises.getD r.index .fresh

/-- The result of a promise that has one. -/
def result? (p : Performance μ σ κ) (r : PromiseRef) : Option Settled := (p.promise r).result?

/-- State and memory. -/
def now (p : Performance μ σ κ) : σ × μ := (p.actor.state, p.memory)

/-- The number of workers that are busy with the actor. -/
def busy (p : Performance μ σ κ) : Nat := p.turns.countP (·.progress.busy)

/-- Settles a promise. -/
def settle (p : Performance μ σ κ) (r : PromiseRef) (o : Outcome Value) : Performance μ σ κ :=
  let (_, taken, after) := (p.promise r).settle o.settled
  { p with
    promises := p.promises.setIfInBounds r.index after
    settlements := p.settlements ++ [(r, taken)] }

/-- Registers an observer. -/
def observe (p : Performance μ σ κ) (r : PromiseRef) (k : κ) : Performance μ σ κ :=
  { p with promises := p.promises.setIfInBounds r.index ((p.promise r).observe k).2 }

/-- The thread that admitted jobs has them in its hands. -/
def hold (p : Performance μ σ κ) (admitted : List (Job (Call μ σ))) (actor : Actor μ σ) :
    Performance μ σ κ :=
  { p with actor, turns := p.turns ++ admitted.map (⟨·, .held⟩) }

/-- Makes the promise of a message. -/
def newPromise (p : Performance μ σ κ) : PromiseRef × Performance μ σ κ :=
  (⟨p.promises.size⟩, { p with promises := p.promises.push .fresh })

/-- Sends a message. -/
def send (p : Performance μ σ κ) (cue : Cue) : Performance μ σ κ :=
  let (r, p) := p.newPromise
  match p.actor.send? cue.name cue.arguments r with
  | some (admitted, actor) => p.hold admitted actor
  | none => p.settle r (.error (DispatchError.unknownOperation cue.name).message)

/-- Puts a turn in place of another. -/
def put (p : Performance μ σ κ) (place : Nat) (turn : Turn μ σ) : Performance μ σ κ :=
  { p with turns := p.turns.set place turn }

/-- Runs the function of a call. -/
def look (p : Performance μ σ κ) (place : Nat) (job : Job (Call μ σ)) : Performance μ σ κ :=
  let (o, actor, memory) := p.actor.perform job.work p.memory
  { p with actor, memory }.put place ⟨job, .answered o⟩

/-- Reports a call finished. -/
def finish (p : Performance μ σ κ) (place : Nat) (job : Job (Call μ σ)) : Performance μ σ κ :=
  let (admitted, actor) := p.actor.complete job.access
  { p with turns := p.turns.eraseIdx place }.hold admitted actor

/-- Runs one event on a pool with a number of workers, if the call at the place has come so far. -/
def step? (workers : Nat) (p : Performance μ σ κ) : Event κ → Option (Performance μ σ κ)
  | .send cue => some (p.send cue)
  | .observe r k => some (p.observe r k)
  | .handOver place =>
    match p.turns[place]? with
    | some ⟨job, .held⟩ => some (p.put place ⟨job, .scheduled⟩)
    | _ => none
  | .start place =>
    match p.turns[place]? with
    | some ⟨job, .scheduled⟩ => if p.busy < workers then some (p.put place ⟨job, .started⟩) else none
    | _ => none
  | .look place =>
    match p.turns[place]? with
    | some ⟨job, .started⟩ => some (p.look place job)
    | _ => none
  | .settle place =>
    match p.turns[place]? with
    | some ⟨job, .answered o⟩ => some ((p.settle job.work.reply o).put place ⟨job, .settled⟩)
    | _ => none
  | .finish place =>
    match p.turns[place]? with
    | some ⟨job, .settled⟩ => some (p.finish place job)
    | _ => none

/-- Runs events one after the other. -/
def run? (workers : Nat) (p : Performance μ σ κ) : List (Event κ) → Option (Performance μ σ κ)
  | [] => some p
  | e :: rest => (p.step? workers e).bind fun p ↦ p.run? workers rest

/-- What each event can do. -/
inductive Step (workers : Nat) (p : Performance μ σ κ) :
    Event κ → Performance μ σ κ → Prop where
  /-- anybody may send -/
  | send (cue : Cue) : Step workers p (.send cue) (p.send cue)
  /-- anybody may observe -/
  | observe (r : PromiseRef) (k : κ) : Step workers p (.observe r k) (p.observe r k)
  /-- a call in somebody's hands is handed over -/
  | handOver {place : Nat} {job : Job (Call μ σ)} (found : p.turns[place]? = some ⟨job, .held⟩) :
      Step workers p (.handOver place) (p.put place ⟨job, .scheduled⟩)
  /-- a call that is scheduled is taken by a free worker -/
  | start {place : Nat} {job : Job (Call μ σ)} (found : p.turns[place]? = some ⟨job, .scheduled⟩)
      (free : p.busy < workers) : Step workers p (.start place) (p.put place ⟨job, .started⟩)
  /-- a call that a worker has taken looks -/
  | look {place : Nat} {job : Job (Call μ σ)} (found : p.turns[place]? = some ⟨job, .started⟩) :
      Step workers p (.look place) (p.look place job)
  /-- a call that has looked settles its promise -/
  | settle {place : Nat} {job : Job (Call μ σ)} {o : Outcome Value}
      (found : p.turns[place]? = some ⟨job, .answered o⟩) :
      Step workers p (.settle place) ((p.settle job.work.reply o).put place ⟨job, .settled⟩)
  /-- a call whose promise is settled is finished -/
  | finish {place : Nat} {job : Job (Call μ σ)} (found : p.turns[place]? = some ⟨job, .settled⟩) :
      Step workers p (.finish place) (p.finish place job)

theorem step_of_step? {workers : Nat} {p p' : Performance μ σ κ} {e : Event κ}
    (step : p.step? workers e = some p') : Step workers p e p' := by
  cases e with
  | send cue => cases step; exact .send cue
  | observe r k => cases step; exact .observe r k
  | handOver place =>
    rw [step?] at step
    split at step <;> cases step
    exact .handOver ‹_›
  | start place =>
    rw [step?] at step
    split at step
    next job found =>
      obtain ⟨free, started⟩ := Option.ite_none_right_eq_some.mp step
      cases started
      exact .start found free
    next => cases step
  | look place =>
    rw [step?] at step
    split at step <;> cases step
    exact .look ‹_›
  | settle place =>
    rw [step?] at step
    split at step <;> cases step
    exact .settle ‹_›
  | finish place =>
    rw [step?] at step
    split at step <;> cases step
    exact .finish ‹_›

/-- The message that an event sends. -/
def Event.cue? : Event κ → Option Cue
  | .send cue => some cue
  | _ => none

/-- The messages that events send, in order. -/
def cues (events : List (Event κ)) : List Cue := events.filterMap Event.cue?

/-! ## Promises -/

section Promises

variable (p : Performance μ σ κ) (r : PromiseRef)

@[simp] theorem turns_settle (o : Outcome Value) : (p.settle r o).turns = p.turns := rfl

@[simp] theorem size_settle (o : Outcome Value) : (p.settle r o).promises.size = p.promises.size :=
  Array.size_setIfInBounds

@[simp] theorem turns_observe (k : κ) : (p.observe r k).turns = p.turns := rfl

@[simp] theorem settlements_observe (k : κ) : (p.observe r k).settlements = p.settlements := rfl

@[simp] theorem size_observe (k : κ) : (p.observe r k).promises.size = p.promises.size :=
  Array.size_setIfInBounds

@[simp] theorem result?_put (place : Nat) (turn : Turn μ σ) :
    (p.put place turn).result? r = p.result? r := rfl

/-- A promise that was not made has no result. -/
theorem result?_of_size_le {r : PromiseRef} (missing : p.promises.size ≤ r.index) :
    p.result? r = none := by
  simp [result?, promise, missing]

/-- Making a promise leaves the results of all. -/
@[simp] theorem result?_newPromise : p.newPromise.2.result? r = p.result? r := by
  simp only [result?, promise, newPromise, Array.getD_eq_getD_getElem?, Array.getElem?_push]
  by_cases new : r.index = p.promises.size
  · simp [new]
  · simp [new]

/-- Settling a promise leaves the others. -/
theorem result?_settle_of_ne {r other : PromiseRef} (apart : other ≠ r) (o : Outcome Value) :
    (p.settle r o).result? other = p.result? other := by
  have indices : r.index ≠ other.index := fun same ↦ apart (PromiseRef.ext same.symm)
  simp [result?, promise, settle, Array.getElem?_setIfInBounds_ne indices]

/-- A promise without a result takes the one it is settled with. -/
theorem result?_settle_self {r : PromiseRef} (made : r.index < p.promises.size)
    (free : p.result? r = none) (o : Outcome Value) : (p.settle r o).result? r = some o.settled := by
  simp only [result?, promise, settle, Array.getD_eq_getD_getElem?,
    Array.getElem?_setIfInBounds_self_of_lt made, Option.getD_some]
  cases found : p.promises.getD r.index .fresh with
  | pending observers =>
    rw [Array.getD_eq_getD_getElem?] at found
    rw [found]
    rfl
  | settled first => simp [result?, promise, found, Promise.result?] at free

/-- Settling a promise that has no result leaves those that have one. -/
theorem result?_settle_of_some {r other : PromiseRef} (free : p.result? r = none) {first : Settled}
    (known : p.result? other = some first) (o : Outcome Value) :
    (p.settle r o).result? other = some first := by
  have apart : other ≠ r := by
    rintro rfl
    simp [known] at free
  rw [result?_settle_of_ne p apart, known]

/-- A promise without a result takes the one it is settled with, and that is noted. -/
theorem settlements_settle {r : PromiseRef} (free : p.result? r = none) (o : Outcome Value) :
    (p.settle r o).settlements = p.settlements ++ [(r, true)] := by
  unfold settle
  cases found : p.promise r with
  | pending observers => rfl
  | settled first => simp [result?, found, Promise.result?] at free

/-- A promise was settled once if it has a result, and never if it has none. -/
def Noted : Prop :=
  ∀ r, p.settlements.filter (fun e ↦ e.1 = r) = if (p.result? r).isSome then [(r, true)] else []

/-- Settling a promise that has no result is noted. -/
theorem Noted.settle {p : Performance μ σ κ} (h : p.Noted) {r : PromiseRef}
    (made : r.index < p.promises.size) (free : p.result? r = none) (o : Outcome Value) :
    (p.settle r o).Noted := by
  intro other
  rw [settlements_settle p free, List.filter_append, h other]
  by_cases same : r = other
  · subst same
    simp [free, result?_settle_self p made free]
  · simp [same, result?_settle_of_ne p (Ne.symm same)]

/-- Observing a promise leaves all results. -/
@[simp] theorem result?_observe (k : κ) (other : PromiseRef) :
    (p.observe r k).result? other = p.result? other := by
  have kept : ((p.promise r).observe k).2.result? = (p.promise r).result? := by
    cases p.promise r <;> rfl
  simp only [result?, promise, observe, Array.getD_eq_getD_getElem?, Array.getElem?_setIfInBounds]
  split
  next same =>
    split
    next => simpa [promise, same] using kept
    next missing => simp [← same, missing]
  next => rfl

end Promises

/-! ## Coming to an end -/

end Performance

/-- The number of events until a call is finished. -/
def Progress.ahead : Progress → Nat
  | .held => 5
  | .scheduled => 4
  | .started => 3
  | .answered _ => 2
  | .settled => 1

namespace Performance

variable {p : Performance μ σ κ}

/-- The number of events until all calls are finished that are at work or wait. -/
def ahead (p : Performance μ σ κ) : Nat :=
  (p.turns.map (·.progress.ahead)).sum + 6 * p.actor.dispatch.queued

/-- The turns at one place and at the others are what is ahead. -/
theorem sum_ahead {place : Nat} {turn : Turn μ σ} (found : p.turns[place]? = some turn) :
    (p.turns.map (·.progress.ahead)).sum =
      turn.progress.ahead + ((p.turns.eraseIdx place).map (·.progress.ahead)).sum :=
  ((Dispatch.Traffic.perm_of_getElem? found).map _).symm.sum_nat

/-- A call that comes further brings the end nearer. -/
theorem ahead_put_lt {place : Nat} {turn new : Turn μ σ} (found : p.turns[place]? = some turn)
    (nearer : new.progress.ahead < turn.progress.ahead) : (p.put place new).ahead < p.ahead := by
  have within := (List.getElem?_eq_some_iff.mp found).1
  have after : ((p.put place new).turns.map (·.progress.ahead)).sum =
      new.progress.ahead + ((p.turns.eraseIdx place).map (·.progress.ahead)).sum :=
    ((List.set_perm_cons_eraseIdx within new).map _).sum_nat
  have queue : (p.put place new).actor.dispatch = p.actor.dispatch := rfl
  rw [ahead, ahead, after, sum_ahead found, queue]
  omega

/-- A call that is finished brings the end nearer, whatever is admitted then. -/
theorem ahead_finish_lt {place : Nat} {job : Job (Call μ σ)}
    (found : p.turns[place]? = some ⟨job, .settled⟩) : (p.finish place job).ahead < p.ahead := by
  have queue := Dispatch.queue_advance (p.actor.dispatch.release job.access)
  rw [Dispatch.queue_release] at queue
  have length : p.actor.dispatch.queued = (p.actor.dispatch.complete job.access).1.length +
      (p.actor.dispatch.complete job.access).2.queued := by
    rw [Dispatch.queued, ← queue, List.length_append]
    rfl
  have admitted : ((p.finish place job).turns.map (·.progress.ahead)).sum =
      ((p.turns.eraseIdx place).map (·.progress.ahead)).sum +
        5 * (p.actor.dispatch.complete job.access).1.length := by
    simp [Performance.finish, Actor.complete, hold, Function.comp_def, Progress.ahead, Nat.mul_comm]
  have left : (p.finish place job).actor.dispatch = (p.actor.dispatch.complete job.access).2 := rfl
  rw [ahead, ahead, sum_ahead found, admitted, left, length]
  simp only [Progress.ahead]
  omega

/-- As long as a call is at work, something can be done that brings the end nearer. -/
theorem exists_step {workers : Nat} (free : 0 < workers) (working : p.turns ≠ []) :
    ∃ e p', p.step? workers e = some p' ∧ e.cue? = none ∧ p'.ahead < p.ahead := by
  by_cases waiting : ∀ turn ∈ p.turns, turn.progress = .scheduled
  · -- all workers are free
    have idle : p.busy = 0 := by
      refine List.countP_eq_zero.mpr fun turn worked ↦ ?_
      simp [waiting turn worked, Progress.busy]
    obtain ⟨⟨job, progress⟩, rest, turns⟩ := List.exists_cons_of_ne_nil working
    obtain rfl : progress = .scheduled := waiting ⟨job, progress⟩ (by simp [turns])
    have found : p.turns[0]? = some ⟨job, .scheduled⟩ := by simp [turns]
    exact ⟨.start 0, p.put 0 ⟨job, .started⟩, by simp [step?, found, idle, free], rfl,
      ahead_put_lt found (Nat.lt_succ_self _)⟩
  · obtain ⟨⟨job, progress⟩, worked, apart⟩ : ∃ turn ∈ p.turns, turn.progress ≠ .scheduled := by
      simpa using waiting
    obtain ⟨place, found⟩ := List.mem_iff_getElem?.mp worked
    cases progress with
    | held =>
      exact ⟨.handOver place, p.put place ⟨job, .scheduled⟩, by simp [step?, found], rfl,
        ahead_put_lt found (Nat.lt_succ_self _)⟩
    | scheduled => exact absurd rfl apart
    | started =>
      exact ⟨.look place, p.look place job, by simp [step?, found], rfl,
        ahead_put_lt (p := p) found (Nat.lt_succ_self _)⟩
    | answered o =>
      exact ⟨.settle place, (p.settle job.work.reply o).put place ⟨job, .settled⟩,
        by simp [step?, found], rfl, ahead_put_lt found (Nat.lt_succ_self _)⟩
    | settled =>
      exact ⟨.finish place, p.finish place job, by simp [step?, found], rfl, ahead_finish_lt found⟩

/-- Every performance can come to an end without further messages. -/
theorem exists_run_done {workers : Nat} (free : 0 < workers) (p : Performance μ σ κ) :
    ∃ events p', p.run? workers events = some p' ∧ cues events = [] ∧ p'.turns = [] := by
  induction distance : p.ahead using Nat.strongRecOn generalizing p with
  | ind n ih =>
    by_cases done : p.turns = []
    · exact ⟨[], p, rfl, rfl, done⟩
    · obtain ⟨e, next, step, silent, nearer⟩ := exists_step free done
      obtain ⟨events, p', run, none, done⟩ := ih next.ahead (distance ▸ nearer) next rfl
      exact ⟨e :: events, p', by simp [run?, step, run], by simpa [cues, silent] using none, done⟩

end Performance

end Troupe
