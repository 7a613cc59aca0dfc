import Troupe.Proofs.Promise.Web
import Troupe.Proofs.System.Threads

/-!
# What a system does to its promises

A call on the promises of a `System`, and a task that gives an observer its result, are one order of the
chores of a `Web` (`ask_weaves`, `react_weaves`): both have the same memory and the same promises after it,
and the observers that the system schedules are the chores that are left.  So what holds for all orders of
chores holds of a system.
-/

namespace Troupe.System

open Web

variable {ι σ : Type} {start : Scheduler (Task ι σ)} {rest : List (Chore ι)} {sys : System ι σ}
  {w w' : Web ι}

/-- A system and a web have the same memory and the same promises, and since some instant the observers
that one scheduled are the chores that came to the other. -/
structure Weaves (start : Scheduler (Task ι σ)) (rest : List (Chore ι)) (sys : System ι σ) (w : Web ι) :
    Prop where
  /-- the memory -/
  memory : sys.memory = w.memory
  /-- the promises -/
  promises : sys.promises = w.promises
  /-- what is to be done -/
  handed : ∃ handed : List (Observer ι × Settled),
    sys.scheduler = start.scheduleAll (handed.map fun e ↦ .react e.1 e.2) ∧
      w.chores = rest ++ handed.map fun e ↦ .react e.1 e.2

namespace Weaves

/-- At the instant itself nothing came yet. -/
theorem refl (memory : sys.memory = w.memory) (promises : sys.promises = w.promises) :
    Weaves sys.scheduler w.chores sys w :=
  ⟨memory, promises, [], by simp [Scheduler.scheduleAll], by simp⟩

theorem promise (h : Weaves start rest sys w) (p : PromiseRef) : sys.promise p = w.promise p := by
  rw [System.promise, h.promises, Web.promise]

/-- What else a web notes does not matter. -/
theorem congr (h : Weaves start rest sys w) (memory : w'.memory = w.memory)
    (promises : w'.promises = w.promises) (chores : w'.chores = w.chores) : Weaves start rest sys w' := by
  obtain ⟨handed, scheduled, left⟩ := h.handed
  exact ⟨h.memory.trans memory.symm, h.promises.trans promises.symm, handed, scheduled, chores.trans left⟩

theorem onMemory (h : Weaves start rest sys w) (memory : Memory ι) :
    Weaves start rest { sys with memory } { w with memory } :=
  ⟨rfl, h.promises, h.handed⟩

/-- Promises may change in the same way, and observers be handed over. -/
theorem put (h : Weaves start rest sys w) (p : PromiseRef) (after : Promise (Observer ι))
    (more : List (Observer ι × Settled)) :
    Weaves start rest
      { sys with
        promises := sys.promises.setIfInBounds p.index after
        scheduler := sys.scheduler.scheduleAll (more.map fun e ↦ .react e.1 e.2) }
      ((w.put p after).add (more.map fun e ↦ .react e.1 e.2)) := by
  obtain ⟨handed, scheduled, left⟩ := h.handed
  refine ⟨h.memory, by simp [add, Web.put, h.promises], handed ++ more, ?_, ?_⟩
  · simp [scheduled, Scheduler.scheduleAll]
  · simp [add, Web.put, left]

theorem settle (h : Weaves start rest sys w) (p : PromiseRef) (o : Outcome Value) :
    Weaves start rest (sys.settle p o).2 (w.settle p o.settled) := by
  have both := h.put p ((w.promise p).settle o.settled).2.2
    (((w.promise p).settle o.settled).1.map (·, o.settled))
  simpa [System.settle, Web.settle, h.promise, Function.comp_def] using both

theorem observe (h : Weaves start rest sys w) (p : PromiseRef) (k : Observer ι) :
    Weaves start rest (sys.observe p k) (w.observe p k) := by
  have same := h.promise p
  cases now : w.promise p with
  | pending observers =>
    have both := h.put p (.pending (observers ++ [k])) []
    simpa [System.observe, Web.observe, same, now, Promise.observe, Scheduler.scheduleAll, add] using both
  | settled r =>
    obtain ⟨handed, scheduled, left⟩ := h.handed
    refine ⟨?_, ?_, handed ++ [(k, r)], ?_, ?_⟩
    · simp [System.observe, Web.observe, same, now, Promise.observe, schedule, add, h.memory]
    · simp [System.observe, Web.observe, same, now, Promise.observe, schedule, add, h.promises]
    · simp [System.observe, same, now, Promise.observe, schedule, Scheduler.schedule, scheduled,
        Scheduler.scheduleAll]
    · simp [Web.observe, now, Promise.observe, add, left]

/-- The promise made next is the same. -/
theorem next (h : Weaves start rest sys w) : sys.newPromise.1 = w.next := by
  rw [System.newPromise, h.promises]
  rfl

theorem newPromise (h : Weaves start rest sys w) :
    Weaves start rest sys.newPromise.2 (w.touch w.next) := by
  refine ⟨h.memory, ?_, h.handed⟩
  simp [System.newPromise, touch, Web.next, h.promises]

end Weaves

/-- The outcome that a result is has that result. -/
theorem settled_outcome (r : Settled) : r.outcome.settled = r := by
  cases r <;> rfl

/-- Nothing to do adds nothing to do. -/
theorem add_nil (w : Web ι) : w.add [] = w := by
  rw [add, List.append_nil]

/-- A promise that was made is not made again. -/
theorem touch_of_made {p : PromiseRef} (made : w.Made p) : w.touch p = w := by
  have none : p.index + 1 - w.promises.size = 0 := Nat.sub_eq_zero_of_le made
  simp [touch, none]

/-- A stage that answers so leads to a promise that was made, or to a new one of its own. -/
def Within (sys : System ι σ) : Continuation ι → Prop
  | .promise q => q.index < sys.promises.size
  | .message _ => False
  | .fresh _ | .outcome _ | .panicked _ => True

/-- The web comes to what the system is by doing chores. -/
def Catches (start : Scheduler (Task ι σ)) (rest : List (Chore ι)) (sys : System ι σ) (w : Web ι) : Prop :=
  ∃ (places : List Nat) (w' : Web ι), w.run? (places.map .work) = some w' ∧ Weaves start rest sys w'

namespace Catches

theorem of_weaves (h : Weaves start rest sys w) : Catches start rest sys w := ⟨[], w, rfl, h⟩

/-- A chore that came last is done. -/
theorem add {c : Chore ι} (h : Catches start rest sys (w.perform c)) :
    Catches start rest sys (w.add [c]) := by
  obtain ⟨places, w', run, weaves⟩ := h
  have step : (w.add [c]).step? (.work w.chores.length) = some (w.perform c) := by
    simp [step?, Web.add, take, List.eraseIdx_append_of_length_le]
  exact ⟨w.chores.length :: places, w', by simp [run?, step, run], weaves⟩

theorem settle (h : Weaves start rest sys w) (p : PromiseRef) (o : Outcome Value) :
    Catches start rest (sys.settle p o).2 (w.add [.settle p o]) :=
  .add (.of_weaves ((h.settle p o).congr rfl rfl rfl))

theorem observe (h : Weaves start rest sys w) (p : PromiseRef) (k : Observer ι) :
    Catches start rest (sys.observe p k) (w.add [.observe p k]) :=
  .add (.of_weaves (h.observe p k))

theorem adopt (h : Weaves start rest sys w) (p other : PromiseRef) :
    Catches start rest (sys.adopt p other).2 (w.add [.adopt p other]) := by
  refine .add ?_
  have asked (answer : Report) : Weaves start rest sys (w.report answer) := h.congr rfl rfl rfl
  rw [System.adopt, h.promise, Web.perform]
  cases (w.promise p).isSettled with
  | true => exact .of_weaves (asked _)
  | false => exact .observe (asked _) other (.adopt p)

/-- What a stage answered is gone on with. -/
theorem continueWith (h : Weaves start rest sys w) (target : PromiseRef) (v : Value)
    {c : Continuation ι} (within : sys.Within c) :
    Catches start rest (sys.continueWith target c) (w.continueWith target v c) := by
  have noted {sys : System ι σ} {w : Web ι} (h : Weaves start rest sys w) (i : Invocation) :
      Weaves start rest sys (w.invoke i) := h.congr rfl rfl rfl
  cases c with
  | promise q =>
    have made : w.Made q := by
      rw [Made, ← h.promises]
      exact within
    have there := noted h ⟨target, v, .led q⟩
    rw [← touch_of_made made] at there
    exact .adopt there target q
  | fresh tell =>
    have there := noted (h.newPromise.onMemory (tell w.next w.memory)) ⟨target, v, .led w.next⟩
    rw [System.continueWith, Web.continueWith]
    simp only [h.next, onMemory, show sys.newPromise.2.memory = w.memory from h.memory]
    exact .adopt there target w.next
  | outcome o =>
    have there := noted h.newPromise ⟨target, v, .led w.next⟩
    generalize led : (w.touch w.next).invoke ⟨target, v, .led w.next⟩ = asked at there
    have free : asked.promise w.next = .fresh := by
      rw [← led]
      refine (promise_touch w w.next w.next).trans ?_
      simp [Web.promise, Web.next]
    -- Nobody waits for the new promise, so it may as well be settled before it is adopted.
    have order : (asked.add [.adopt target w.next]).perform (.settle w.next o) =
        ((asked.settle w.next o.settled).report (.settled w.next o.settled true)).add
          [.adopt target w.next] := by
      rw [Web.perform, Web.settle, Web.settle,
        show (asked.add [.adopt target w.next]).promise w.next = .fresh from free, free]
      simp only [Promise.settle, Promise.fresh, List.map_nil, add_nil]
      rfl
    rw [System.continueWith, settledPromise, Web.continueWith, lead, led]
    simp only [h.next]
    have settled : Weaves start rest (sys.newPromise.2.settle w.next o).2
        ((asked.settle w.next o.settled).report (.settled w.next o.settled true)) :=
      (there.settle w.next o).congr rfl rfl rfl
    exact .add (order ▸ .adopt settled target w.next)
  | message m => exact within.elim
  | panicked message => exact .settle (noted h _) target _

/-- An observer is given its result. -/
theorem react (h : Weaves start rest sys w) (k : Observer ι) (r : Settled)
    (within : ∀ target f v, k = .follow target f → r = .ok v → sys.Within (f v sys.memory).1) :
    Catches start rest (sys.react k r) (w.react k r) := by
  have noted {sys : System ι σ} {w : Web ι} (h : Weaves start rest sys w) (i : Invocation) :
      Weaves start rest sys (w.invoke i) := h.congr rfl rfl rfl
  cases k with
  | adopt target =>
    refine .of_weaves ?_
    have settled := h.settle target r.outcome
    rwa [settled_outcome] at settled
  | step target f =>
    cases r with
    | error e => exact .settle h target (.error e)
    | ok v =>
      rw [System.react, Web.react, h.memory]
      exact .settle (noted (h.onMemory _) _) target _
  | follow target f =>
    cases r with
    | error e => exact .settle h target (.error e)
    | ok v =>
      have goes := within target f v rfl rfl
      rw [System.react, Web.react]
      rw [h.memory] at goes ⊢
      exact .continueWith (h.onMemory _) target v goes
  | wrap target member path =>
    rw [System.react, Web.react, h.memory]
    exact .settle (h.onMemory _) target _
  | watch f =>
    refine .of_weaves ?_
    rw [System.react, Web.react, System.onMemory, h.memory]
    exact h.onMemory _

end Catches

/-- A task that gives an observer its result does what a chore does with the chores that come of it, one
after the other. -/
theorem react_weaves (memory : sys.memory = w.memory) (promises : sys.promises = w.promises)
    {place : Nat} {k : Observer ι} {r : Settled} (found : w.chores[place]? = some (.react k r))
    (within : ∀ target f v, k = .follow target f → r = .ok v → sys.Within (f v sys.memory).1) :
    ∃ (places : List Nat) (w' : Web ι), w.run? (.work place :: places.map .work) = some w' ∧
      Weaves sys.scheduler (w.chores.eraseIdx place) (sys.react k r) w' := by
  have taken : Weaves sys.scheduler (w.take place).chores sys (w.take place) := .refl memory promises
  obtain ⟨places, w', run, weaves⟩ := Catches.react taken k r within
  have step : w.step? (.work place) = some ((w.take place).react k r) := by
    rw [step?, found]
    rfl
  exact ⟨places, w', by rw [run?, step, Option.bind_some, run], weaves⟩

/-- What a call asks of a system. -/
def ask (sys : System ι σ) : Web.Call ι → System ι σ
  | .settle p o => (sys.settle p o).2
  | .adopt p other => (sys.adopt p other).2
  | .watch p f => sys.observe p (.watch f)
  | .wrap p target member path => sys.observe p (.wrap target member path)
  | .link p (.step f) => (sys.thenStep p f).2
  | .link p (.follow f) => (sys.thenFollow p f).2

/-- A call about promises that were made does what its chores do, one after the other. -/
theorem ask_weaves (memory : sys.memory = w.memory) (promises : sys.promises = w.promises)
    (c : Web.Call ι) (made : ∀ p ∈ c.mentions, p.index < sys.promises.size) :
    ∃ (places : List Nat) (w' : Web ι), w.run? (.call c :: places.map .work) = some w' ∧
      Weaves sys.scheduler w.chores (sys.ask c) w' := by
  have refl : Weaves sys.scheduler w.chores sys w := .refl memory promises
  have known : ∀ p ∈ c.mentions, w.touch p = w := fun p mentioned ↦
    touch_of_made (by rw [Made, ← promises]; exact made p mentioned)
  have linked {w' : Web ι} (h : Weaves sys.scheduler w.chores sys.newPromise.2 w') (p : PromiseRef)
      (k : Observer ι) (l : Link ι) :
      Catches sys.scheduler w.chores (sys.newPromise.2.observe p k)
        { w'.add [.observe p k] with links := w.links ++ [l] } :=
    .observe (w := { w' with links := w.links ++ [l] }) (h.congr rfl rfl rfl) p k
  have catches : Catches sys.scheduler w.chores (sys.ask c) (w.call c) := by
    cases c with
    | settle p o =>
      rw [Web.call, known p (by simp [Call.mentions])]
      exact .settle refl p o
    | adopt p other =>
      rw [Web.call, known p (by simp [Call.mentions]), known other (by simp [Call.mentions])]
      exact .adopt refl p other
    | watch p f =>
      rw [Web.call, known p (by simp [Call.mentions])]
      exact .observe refl p _
    | wrap p target member path =>
      rw [Web.call, known p (by simp [Call.mentions]), known target (by simp [Call.mentions])]
      exact .observe refl p _
    | link p stage =>
      rw [Web.call, known p (by simp [Call.mentions])]
      cases stage with
      | step f =>
        simp only [ask, thenStep, refl.next]
        exact linked refl.newPromise p (.step w.next f) _
      | follow f =>
        simp only [ask, thenFollow, refl.next]
        exact linked refl.newPromise p (.follow w.next f) _
  obtain ⟨places, w', run, weaves⟩ := catches
  exact ⟨places, w', run, weaves⟩

end Troupe.System
