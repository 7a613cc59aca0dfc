import Mathlib.Data.List.Basic
import Mathlib.Tactic.Tauto
import Troupe.System.Send

/-!
# Webs of promises

Promises that are settled, adopt each other and are chained by many threads.  `System.settle`,
`System.adopt` and `System.react` do in one go what the threads of a pool do bit by bit, while other threads
go on.  Here a thread does one bit at an instant: it runs the
function of an observer, or it locks one promise.  What it does next is a chore, and so is an observer that
is to get its result, from the moment on in which its promise is settled.

Any chore may be done next.  So the hand-over of an observer, which takes place between the lock and the
run, needs no bit of its own, and neither does its order among others: the order of the chores is one of
them.

A promise that is mentioned for the first time was made before that.  Nobody knew it, so it makes no
difference when.

What an event can do is said once: `react_cases` and `call_cases` tell which chores come of an observer that
gets its result and of a call, and that nothing else changes then.
-/

namespace Troupe

variable {ι : Type}

/-- The promise that an observer settles when it gets its result, or later. -/
def Observer.target? : Observer ι → Option PromiseRef
  | .adopt target | .step target _ | .follow target _ | .wrap target _ _ => some target
  | .watch _ => none

/-- The observers that a promise has yet to tell. -/
def Promise.waiting {κ : Type} : Promise κ → List κ
  | .pending observers => observers
  | .settled _ => []

namespace Web

/-- What a thread does next. -/
inductive Chore (ι : Type) where
  /-- it gives an observer its result -/
  | react (k : Observer ι) (r : Settled)
  /-- it settles a promise -/
  | settle (p : PromiseRef) (o : Outcome Value)
  /-- it asks a promise whether it is free to adopt another -/
  | adopt (p other : PromiseRef)
  /-- it brings an observer to a promise -/
  | observe (p : PromiseRef) (k : Observer ι)

/-- The promises that a chore is about. -/
def Chore.mentions : Chore ι → List PromiseRef
  | .react k _ => k.target?.toList
  | .settle p _ => [p]
  | .adopt p other => [p, other]
  | .observe p k => p :: k.target?.toList

/-- What the builder of a chain attaches to a promise. -/
inductive Stage (ι : Type) where
  /-- the value goes through a function -/
  | step (f : Value → Memory ι → Reply × Memory ι)
  /-- the value leads to another promise -/
  | follow (f : Value → Memory ι → Continuation ι × Memory ι)

/-- The observer that a stage is, with the promise made for it. -/
def Stage.observer (target : PromiseRef) : Stage ι → Observer ι
  | .step f => .step target f
  | .follow f => .follow target f

/-- One piece of a chain: a stage between the promise that it is attached to and the one made for it. -/
structure Link (ι : Type) where
  /-- the promise that the stage is attached to -/
  source : PromiseRef
  /-- the promise made for what comes of it -/
  target : PromiseRef
  /-- the stage -/
  stage : Stage ι

/-- What is asked of promises, by whoever has them. -/
inductive Call (ι : Type) where
  /-- settle a promise -/
  | settle (p : PromiseRef) (o : Outcome Value)
  /-- let a promise adopt another -/
  | adopt (p other : PromiseRef)
  /-- look at the result of a promise -/
  | watch (p : PromiseRef) (f : Settled → Memory ι → Memory ι)
  /-- settle a promise with the result of another, wrapped as the answer of a group's member -/
  | wrap (p target : PromiseRef) (member path : String)
  /-- make a promise for what comes of a stage attached to another -/
  | link (p : PromiseRef) (stage : Stage ι)

/-- The promise that a call may decide, other than one that it makes. -/
def Call.decides? : Call ι → Option PromiseRef
  | .settle p _ | .adopt p _ | .wrap _ p _ _ => some p
  | .watch _ _ | .link _ _ => none

/-- The promises that a call is about. -/
def Call.mentions : Call ι → List PromiseRef
  | .settle p _ | .watch p _ | .link p _ => [p]
  | .adopt p other => [p, other]
  | .wrap p target _ _ => [p, target]

/-- What happens at one instant. -/
inductive Event (ι : Type) where
  /-- a call is made -/
  | call (c : Call ι)
  /-- the chore at a place is done -/
  | work (place : Nat)

/-- What a call answered to its caller. -/
inductive Report where
  /-- whether a promise took a result -/
  | settled (p : PromiseRef) (r : Settled) (taken : Bool)
  /-- whether a promise was free to adopt another -/
  | adopted (p other : PromiseRef) (free : Bool)
deriving DecidableEq

/-- What a stage answered to a value. -/
inductive Answer where
  /-- a function came back -/
  | replied (reply : Reply)
  /-- it led to a promise -/
  | led (q : PromiseRef)
  /-- it panicked on the way to a promise -/
  | panicked (message : String)
deriving DecidableEq

/-- A stage that got a value. -/
structure Invocation where
  /-- the promise made for the stage -/
  target : PromiseRef
  /-- the value -/
  value : Value
  /-- the answer -/
  answer : Answer
deriving DecidableEq

end Web

open Web

/-- Promises and what is still to be done about them. -/
structure Web (ι : Type) where
  /-- what functions share -/
  memory : Memory ι
  /-- the promises made so far -/
  promises : Array (Promise (Observer ι))
  /-- what threads do next, in any order -/
  chores : List (Chore ι)
  /-- the links of chains, the oldest first -/
  links : List (Link ι)
  /-- the answers to calls, the oldest first -/
  reports : List Report
  /-- the stages that got a value, the oldest first -/
  invocations : List Invocation

namespace Web

/-- No promises. -/
def ofMemory (memory : Memory ι) : Web ι := ⟨memory, #[], [], [], [], []⟩

/-- A promise as it is now. -/
def promise (w : Web ι) (p : PromiseRef) : Promise (Observer ι) := w.promises.getD p.index .fresh

/-- The result of a promise that has one. -/
def result? (w : Web ι) (p : PromiseRef) : Option Settled := (w.promise p).result?

/-- A promise was made. -/
def Made (w : Web ι) (p : PromiseRef) : Prop := p.index < w.promises.size

/-- Mentions a promise, which makes it if it was not made before. -/
def touch (w : Web ι) (p : PromiseRef) : Web ι :=
  { w with promises := w.promises ++ Array.replicate (p.index + 1 - w.promises.size) .fresh }

/-- A promise that nobody mentioned yet. -/
def next (w : Web ι) : PromiseRef := ⟨w.promises.size⟩

/-- Adds chores. -/
def add (w : Web ι) (chores : List (Chore ι)) : Web ι := { w with chores := w.chores ++ chores }

/-- Puts a promise in place of another. -/
def put (w : Web ι) (p : PromiseRef) (after : Promise (Observer ι)) : Web ι :=
  { w with promises := w.promises.setIfInBounds p.index after }

/-- Settles a promise and lets its observers have the result. -/
def settle (w : Web ι) (p : PromiseRef) (r : Settled) : Web ι :=
  let (observers, _, after) := (w.promise p).settle r
  (w.put p after).add (observers.map (.react · r))

/-- Brings an observer to a promise. -/
def observe (w : Web ι) (p : PromiseRef) (k : Observer ι) : Web ι :=
  match (w.promise p).observe k with
  | (some r, _) => w.add [.react k r]
  | (none, after) => w.put p after

/-- Notes the answer to a call. -/
def report (w : Web ι) (answer : Report) : Web ι := { w with reports := w.reports ++ [answer] }

/-- Notes that a stage got a value and what it answered. -/
def invoke (w : Web ι) (i : Invocation) : Web ι := { w with invocations := w.invocations ++ [i] }

/-- Notes that a stage led from a value to a promise, which the promise made for the stage is to adopt. -/
def lead (w : Web ι) (target : PromiseRef) (v : Value) (q : PromiseRef) : Web ι :=
  ((w.touch q).invoke ⟨target, v, .led q⟩).add [.adopt target q]

/-- Goes on with what a stage answered to a value.  A promise that answers a message is settled by its
receiver, whenever that comes to it. -/
def continueWith (w : Web ι) (target : PromiseRef) (v : Value) : Continuation ι → Web ι
  | .promise q => w.lead target v q
  | .fresh tell => { w with memory := tell w.next w.memory }.lead target v w.next
  | .outcome o => (w.lead target v w.next).add [.settle w.next o]
  | .message _ => w.lead target v w.next
  | .panicked message =>
    (w.invoke ⟨target, v, .panicked message⟩).add
      [.settle target (.error (DispatchError.panicked .continuation message).message)]

/-- Gives an observer its result. -/
def react (w : Web ι) : Observer ι → Settled → Web ι
  | .adopt target, r => w.settle target r
  | .step target _, .error e | .follow target _, .error e => w.add [.settle target (.error e)]
  | .step target f, .ok v =>
    let (reply, memory) := f v w.memory
    ({ w with memory }.invoke ⟨target, v, .replied reply⟩).add
      [.settle target (reply.caught .continuation)]
  | .follow target f, .ok v =>
    let (continuation, memory) := f v w.memory
    { w with memory }.continueWith target v continuation
  | .wrap target member path, r =>
    let (v, memory) := w.memory.onHeap (·.groupAnswer member path r)
    { w with memory }.add [.settle target (.value v)]
  | .watch f, r => { w with memory := f r w.memory }

/-- Does a chore. -/
def perform (w : Web ι) : Chore ι → Web ι
  | .react k r => w.react k r
  | .settle p o =>
    (w.settle p o.settled).report (.settled p o.settled ((w.promise p).settle o.settled).2.1)
  | .adopt p other =>
    let asked := w.report (.adopted p other (!(w.promise p).isSettled))
    if (w.promise p).isSettled then asked else asked.add [.observe other (.adopt p)]
  | .observe p k => w.observe p k

/-- Takes the chore at a place. -/
def take (w : Web ι) (place : Nat) : Web ι := { w with chores := w.chores.eraseIdx place }

/-- Makes a call. -/
def call (w : Web ι) : Call ι → Web ι
  | .settle p o => (w.touch p).add [.settle p o]
  | .adopt p other => ((w.touch p).touch other).add [.adopt p other]
  | .watch p f => (w.touch p).add [.observe p (.watch f)]
  | .wrap p target member path => ((w.touch p).touch target).add [.observe p (.wrap target member path)]
  | .link p stage =>
    let w := w.touch p
    { (w.touch w.next).add [.observe p (stage.observer w.next)] with
      links := w.links ++ [⟨p, w.next, stage⟩] }

/-- What comes of one event; a chore is done only if there is one. -/
def step? (w : Web ι) : Event ι → Option (Web ι)
  | .call c => some (w.call c)
  | .work place => w.chores[place]?.map (w.take place).perform

/-- Runs events one after the other. -/
def run? (w : Web ι) : List (Event ι) → Option (Web ι)
  | [] => some w
  | e :: rest => (w.step? e).bind fun w ↦ w.run? rest

/-! ## Promises -/

section Promises

variable (w : Web ι) (p q : PromiseRef)

@[simp] theorem promise_touch : (w.touch p).promise q = w.promise q := by
  simp only [promise, touch, Array.getD_eq_getD_getElem?, Array.getElem?_append]
  split
  · rfl
  · rename_i missing
    rw [Array.getElem?_eq_none (Nat.le_of_not_lt missing)]
    simp [Array.getElem?_replicate]
    split <;> rfl

theorem made_touch_self : (w.touch p).Made p := by
  simp [Made, touch]
  omega

variable {p q}

theorem Made.touch {w : Web ι} (h : w.Made q) : (w.touch p).Made q := by
  simp only [Made, Web.touch, Array.size_append] at h ⊢
  omega

/-- The next promise is not made yet. -/
theorem Made.ne_next {w : Web ι} (h : w.Made p) : p ≠ w.next := by
  rintro rfl
  exact absurd h (Nat.lt_irrefl _)

theorem promise_put_self (made : w.Made p) (after : Promise (Observer ι)) :
    (w.put p after).promise p = after := by
  simp [promise, put, Array.getElem?_setIfInBounds_self_of_lt made]

theorem promise_put_of_ne (apart : q ≠ p) (after : Promise (Observer ι)) :
    (w.put p after).promise q = w.promise q := by
  have indices : p.index ≠ q.index := fun same ↦ apart (PromiseRef.ext same.symm)
  simp [promise, put, Array.getElem?_setIfInBounds_ne indices]

@[simp] theorem made_put (after : Promise (Observer ι)) : (w.put p after).Made q ↔ w.Made q := by
  simp [Made, put]

/-- Where no promise was made, none can be put. -/
theorem put_of_not_made (missing : ¬ w.Made p) (after : Promise (Observer ι)) : w.put p after = w := by
  rw [put, Array.setIfInBounds_eq_of_size_le (Nat.le_of_not_lt missing)]

/-- A promise that was not made has nobody waiting. -/
theorem waiting_of_not_made (missing : ¬ w.Made p) : (w.promise p).waiting = [] := by
  rw [promise, Array.getD_eq_getD_getElem?, Array.getElem?_eq_none (Nat.le_of_not_lt missing)]
  rfl

/-- A promise that was not made has no result. -/
theorem result?_of_not_made (missing : ¬ w.Made p) : w.result? p = none := by
  rw [result?, promise, Array.getD_eq_getD_getElem?, Array.getElem?_eq_none (Nat.le_of_not_lt missing)]
  rfl

/-- A promise that has a result has nobody waiting. -/
theorem waiting_of_result {r : Settled} (known : w.result? p = some r) :
    (w.promise p).waiting = [] := by
  rw [result?] at known
  cases now : w.promise p with
  | pending observers => simp [now, Promise.result?] at known
  | settled first => rfl

/-- Settling a promise lets all have the result who wait for it. -/
@[simp] theorem chores_settle (r : Settled) :
    (w.settle p r).chores = w.chores ++ (w.promise p).waiting.map (.react · r) := by
  rw [settle]
  cases w.promise p <;> rfl

@[simp] theorem made_settle (r : Settled) : (w.settle p r).Made q ↔ w.Made q :=
  made_put w _

/-- Settling a promise leaves the others. -/
theorem promise_settle_of_ne (apart : q ≠ p) (r : Settled) :
    (w.settle p r).promise q = w.promise q :=
  promise_put_of_ne w apart _

/-- A promise keeps the first result that it is settled with. -/
theorem promise_settle_self (made : w.Made p) (r : Settled) :
    (w.settle p r).promise p = .settled ((w.result? p).getD r) := by
  refine (promise_put_self w made _).trans ?_
  rw [result?]
  cases w.promise p <;> rfl

/-- Nobody waits for a promise that is settled. -/
theorem waiting_settle_self (r : Settled) : ((w.settle p r).promise p).waiting = [] := by
  by_cases made : w.Made p
  · rw [promise_settle_self w made]
    rfl
  · exact waiting_of_not_made _ ((made_settle w r).not.mpr made)

theorem result?_settle_self (made : w.Made p) (r : Settled) :
    (w.settle p r).result? p = some ((w.result? p).getD r) := by
  rw [result?, promise_settle_self w made]
  rfl

/-- Settling a promise leaves all results that are known. -/
theorem result?_settle_of_some {first : Settled} (known : w.result? q = some first) (r : Settled) :
    (w.settle p r).result? q = some first := by
  by_cases same : q = p
  · subst same
    have made : w.Made q := by
      by_contra missing
      simp [result?_of_not_made w missing] at known
    rw [result?_settle_self w made, known]
    rfl
  · rw [result?, promise_settle_of_ne w same]
    exact known

/-- A result after a promise is settled was there before, or the promise took it. -/
theorem result?_settle_cases {r r' : Settled} (known : (w.settle p r).result? q = some r') :
    w.result? q = some r' ∨ q = p ∧ r' = r ∧ w.result? p = none := by
  by_cases same : q = p
  · subst same
    have made : w.Made q := by
      by_contra missing
      simp [result?_of_not_made _ ((made_settle w r).not.mpr missing)] at known
    rw [result?_settle_self w made, Option.some.injEq] at known
    cases before : w.result? q with
    | none => exact .inr ⟨rfl, by simpa [before] using known.symm, rfl⟩
    | some first => exact .inl (by simpa [before] using known)
  · rw [result?, promise_settle_of_ne w same] at known
    exact .inl known

/-- A promise takes a result if it has none. -/
theorem taken_iff (r : Settled) : ((w.promise p).settle r).2.1 = true ↔ w.result? p = none := by
  rw [result?]
  cases w.promise p <;> simp [Promise.settle, Promise.result?]

/-- An observer that comes to a promise without a result waits. -/
theorem observe_of_none (free : w.result? p = none) (k : Observer ι) :
    w.observe p k = w.put p (.pending ((w.promise p).waiting ++ [k])) := by
  rw [result?] at free
  cases now : w.promise p with
  | pending observers => simp [observe, now, Promise.observe, Promise.waiting]
  | settled first => simp [now, Promise.result?] at free

/-- An observer that comes to a promise with a result gets it. -/
theorem observe_of_some {r : Settled} (known : w.result? p = some r) (k : Observer ι) :
    w.observe p k = w.add [.react k r] := by
  rw [result?] at known
  cases now : w.promise p with
  | pending observers => simp [now, Promise.result?] at known
  | settled first =>
    obtain rfl : first = r := by simpa [now, Promise.result?] using known
    simp [observe, now, Promise.observe]

/-- Bringing an observer to a promise leaves all results. -/
@[simp] theorem result?_observe (k : Observer ι) : (w.observe p k).result? q = w.result? q := by
  cases known : w.result? p with
  | some r =>
    rw [observe_of_some w known]
    rfl
  | none =>
    rw [observe_of_none w known]
    by_cases same : q = p
    · subst same
      by_cases made : w.Made q
      · rw [result?, promise_put_self w made, known]
        rfl
      · rw [put_of_not_made w made, known]
    · rw [result?, promise_put_of_ne w same, result?]

end Promises

/-! ## What a chore does -/

/-- What changes when no promise does: promises may be made, and chores, invocations and links may come. -/
structure Grows (w : Web ι) (chores : List (Chore ι)) (invocations : List Invocation)
    (links : List (Link ι)) (w' : Web ι) : Prop where
  /-- promises are as they were -/
  promise : ∀ p, w'.promise p = w.promise p
  /-- promises that were made stay so -/
  made : ∀ {p}, w.Made p → w'.Made p
  /-- chores come -/
  chores : w'.chores = w.chores ++ chores
  /-- invocations come -/
  invocations : w'.invocations = w.invocations ++ invocations
  /-- links come -/
  links : w'.links = w.links ++ links
  /-- nothing is reported -/
  reports : w'.reports = w.reports

theorem Grows.result? {w w' : Web ι} {chores : List (Chore ι)} {invocations : List Invocation}
    {links : List (Link ι)} (h : w.Grows chores invocations links w') (p : PromiseRef) :
    w'.result? p = w.result? p := by
  rw [Web.result?, h.promise, Web.result?]

/-- What grows from a web in which a promise is made, grows from the web before. -/
theorem Grows.of_touch {w w' : Web ι} {p : PromiseRef} {chores : List (Chore ι)}
    {invocations : List Invocation} {links : List (Link ι)}
    (h : (w.touch p).Grows chores invocations links w') : w.Grows chores invocations links w' where
  promise q := (h.promise q).trans (promise_touch w p q)
  made there := h.made there.touch
  chores := h.chores
  invocations := h.invocations
  links := h.links
  reports := h.reports

theorem Grows.link {w w' : Web ι} {chores : List (Chore ι)} {invocations : List Invocation}
    (h : w.Grows chores invocations [] w') (l : Link ι) :
    w.Grows chores invocations [l] { w' with links := w'.links ++ [l] } where
  promise := h.promise
  made := h.made
  chores := h.chores
  invocations := h.invocations
  links := by rw [h.links, List.append_nil]
  reports := h.reports

/-- A stage that answered so leads to a promise: to one that was there, or to a new one, which is settled
at once if the stage knows the outcome. -/
inductive Leads (new : PromiseRef) : PromiseRef → List (Outcome Value) → Continuation ι → Prop where
  /-- a promise that was there -/
  | promise (q : PromiseRef) : Leads new q [] (.promise q)
  /-- a new promise that the stage makes known -/
  | fresh (tell : PromiseRef → Memory ι → Memory ι) : Leads new new [] (.fresh tell)
  /-- a new promise with an outcome -/
  | outcome (o : Outcome Value) : Leads new new [o] (.outcome o)
  /-- a new promise for the answer to a message -/
  | message (m : Message) : Leads new new [] (.message m)

/-- What comes of an observer that gets a result, other than one that adopts it: chores and
invocations. -/
inductive Reaction (w : Web ι) : Observer ι → Settled → List (Chore ι) → List Invocation → Prop where
  /-- an error passes to the promise made for the stage -/
  | passed (stage : Stage ι) (target : PromiseRef) (e : String) :
      Reaction w (stage.observer target) (.error e) [.settle target (.error e)] []
  /-- a function comes back -/
  | replied (target : PromiseRef) (f : Value → Memory ι → Reply × Memory ι) (v : Value) :
      Reaction w (.step target f) (.ok v) [.settle target ((f v w.memory).1.caught .continuation)]
        [⟨target, v, .replied (f v w.memory).1⟩]
  /-- a function leads to a promise, or to one of its own, which it may settle -/
  | led (target : PromiseRef) (f : Value → Memory ι → Continuation ι × Memory ι) (v : Value)
      (q : PromiseRef) (own : List (Outcome Value))
      (answered : Leads w.next q own (f v w.memory).1) :
      Reaction w (.follow target f) (.ok v) (.adopt target q :: own.map (.settle q))
        [⟨target, v, .led q⟩]
  /-- a function panics on its way to a promise -/
  | panicked (target : PromiseRef) (f : Value → Memory ι → Continuation ι × Memory ι) (v : Value)
      (message : String) (answered : (f v w.memory).1 = .panicked message) :
      Reaction w (.follow target f) (.ok v)
        [.settle target (.error (DispatchError.panicked .continuation message).message)]
        [⟨target, v, .panicked message⟩]
  /-- a result is wrapped -/
  | wrapped (target : PromiseRef) (member path : String) (r : Settled) (v : Value) :
      Reaction w (.wrap target member path) r [.settle target (.value v)] []
  /-- a result is looked at -/
  | watched (f : Settled → Memory ι → Memory ι) (r : Settled) : Reaction w (.watch f) r [] []

/-- A stage that gets a value is the observer. -/
theorem Reaction.target?_eq {w : Web ι} {k : Observer ι} {r : Settled} {chores : List (Chore ι)}
    {invocations : List Invocation} (h : w.Reaction k r chores invocations) :
    ∀ i ∈ invocations, k.target? = some i.target := by
  cases h <;> simp [Observer.target?]

theorem grows_add (w : Web ι) (memory : Memory ι) (chores : List (Chore ι)) :
    w.Grows chores [] [] ({ w with memory }.add chores) :=
  ⟨fun _ ↦ rfl, id, rfl, (List.append_nil _).symm, (List.append_nil _).symm, rfl⟩

theorem grows_invoke (w : Web ι) (memory : Memory ι) (i : Invocation) (chores : List (Chore ι)) :
    w.Grows chores [i] [] (({ w with memory }.invoke i).add chores) :=
  ⟨fun _ ↦ rfl, id, rfl, rfl, (List.append_nil _).symm, rfl⟩

theorem grows_lead (w : Web ι) (memory : Memory ι) (target : PromiseRef) (v : Value) (q : PromiseRef)
    (own : List (Chore ι)) :
    w.Grows (.adopt target q :: own) [⟨target, v, .led q⟩] []
      (({ w with memory }.lead target v q).add own) :=
  ⟨fun p ↦ promise_touch w q p, Made.touch, by simp [lead, invoke, touch, add], rfl,
    (List.append_nil _).symm, rfl⟩

/-- A stage leads to a promise or panics. -/
theorem continueWith_cases (w : Web ι) (memory : Memory ι) (target : PromiseRef) (v : Value)
    (c : Continuation ι) :
    (∃ (q : PromiseRef) (own : List (Outcome Value)), Leads w.next q own c ∧
      ({ w with memory }.continueWith target v c).Made q ∧
      w.Grows (.adopt target q :: own.map (.settle q)) [⟨target, v, .led q⟩] []
        ({ w with memory }.continueWith target v c)) ∨
    ∃ message, c = .panicked message ∧
      w.Grows [.settle target (.error (DispatchError.panicked .continuation message).message)]
        [⟨target, v, .panicked message⟩] [] ({ w with memory }.continueWith target v c) := by
  have leads (memory : Memory ι) (q : PromiseRef) :
      w.Grows [.adopt target q] [⟨target, v, .led q⟩] [] ({ w with memory }.lead target v q) := by
    simpa [add] using grows_lead w memory target v q []
  have made (memory : Memory ι) (q : PromiseRef) : ({ w with memory }.lead target v q).Made q :=
    made_touch_self { w with memory } q
  cases c with
  | promise q => exact .inl ⟨q, [], .promise q, made memory q, leads memory q⟩
  | fresh tell =>
    exact .inl ⟨w.next, [], .fresh tell, made _ w.next, leads (tell w.next memory) w.next⟩
  | outcome o =>
    exact .inl ⟨w.next, [o], .outcome o, made memory w.next,
      grows_lead w memory target v w.next [.settle w.next o]⟩
  | message m => exact .inl ⟨w.next, [], .message m, made memory w.next, leads memory w.next⟩
  | panicked message => exact .inr ⟨message, rfl, grows_invoke w memory _ _⟩

/-- An observer adopts its result, or it reacts in one of the other ways.  Then its chores are about its
target or a promise that it was led to. -/
theorem react_cases (w : Web ι) (k : Observer ι) (r : Settled) :
    (∃ target, k = .adopt target) ∨
      ∃ chores invocations, w.Reaction k r chores invocations ∧
        w.Grows chores invocations [] (w.react k r) ∧
        ∀ c ∈ chores, ∀ p ∈ c.mentions, k.target? = some p ∨ (w.react k r).Made p := by
  cases k with
  | adopt target => exact .inl ⟨target, rfl⟩
  | step target f =>
    cases r with
    | error e =>
      exact .inr ⟨_, _, .passed (.step f) target e, grows_add w w.memory _,
        by simp [Chore.mentions, Observer.target?]⟩
    | ok v =>
      exact .inr ⟨_, _, .replied target f v, grows_invoke w _ _ _,
        by simp [Chore.mentions, Observer.target?]⟩
  | follow target f =>
    cases r with
    | error e =>
      exact .inr ⟨_, _, .passed (.follow f) target e, grows_add w w.memory _,
        by simp [Chore.mentions, Observer.target?]⟩
    | ok v =>
      rcases continueWith_cases w (f v w.memory).2 target v (f v w.memory).1 with
        ⟨q, own, answered, made, grows⟩ | ⟨message, answered, grows⟩
      · refine .inr ⟨_, _, .led target f v q own answered, grows, ?_⟩
        have there : (w.react (.follow target f) (.ok v)).Made q := made
        simp [Chore.mentions, Observer.target?, there]
      · exact .inr ⟨_, _, .panicked target f v message answered, grows,
          by simp [Chore.mentions, Observer.target?]⟩
  | wrap target member path =>
    exact .inr ⟨_, _, .wrapped target member path r (w.memory.onHeap (·.groupAnswer member path r)).1,
      grows_add w _ _, by simp [Chore.mentions, Observer.target?]⟩
  | watch f =>
    refine .inr ⟨[], [], .watched f r, ⟨fun _ ↦ rfl, id, (List.append_nil _).symm,
      (List.append_nil _).symm, (List.append_nil _).symm, rfl⟩, by simp⟩

/-- What a call starts: a chore, and a link if it makes a promise. -/
inductive Start (w : Web ι) : Call ι → Chore ι → List (Link ι) → Prop where
  /-- a promise is to be settled -/
  | settle (p : PromiseRef) (o : Outcome Value) : Start w (.settle p o) (.settle p o) []
  /-- a promise is to adopt another -/
  | adopt (p other : PromiseRef) : Start w (.adopt p other) (.adopt p other) []
  /-- an observer is to look at a result -/
  | watch (p : PromiseRef) (f : Settled → Memory ι → Memory ι) :
      Start w (.watch p f) (.observe p (.watch f)) []
  /-- an observer is to wrap a result -/
  | wrap (p target : PromiseRef) (member path : String) :
      Start w (.wrap p target member path) (.observe p (.wrap target member path)) []
  /-- a stage is to be attached, with a new promise -/
  | link (p target : PromiseRef) (stage : Stage ι) (new : ¬ w.Made target) :
      Start w (.link p stage) (.observe p (stage.observer target)) [⟨p, target, stage⟩]

@[simp] theorem Stage.target?_observer (stage : Stage ι) (target : PromiseRef) :
    (stage.observer target).target? = some target := by
  cases stage <;> rfl

/-- A call starts a chore about promises that are made. -/
theorem call_cases (w : Web ι) (c : Call ι) :
    ∃ chore links, w.Start c chore links ∧ w.Grows [chore] [] links (w.call c) ∧
      ∀ p ∈ chore.mentions, (w.call c).Made p := by
  have touched (p : PromiseRef) (chore : Chore ι) : w.Grows [chore] [] [] ((w.touch p).add [chore]) :=
    (grows_add (w.touch p) (w.touch p).memory [chore]).of_touch
  have twice (p q : PromiseRef) (chore : Chore ι) :
      w.Grows [chore] [] [] (((w.touch p).touch q).add [chore]) :=
    ((grows_add _ ((w.touch p).touch q).memory [chore]).of_touch).of_touch
  have both (p q : PromiseRef) : ∀ r ∈ [p, q], ((w.touch p).touch q).Made r := by
    rintro r known
    rcases List.mem_pair.mp known with rfl | rfl
    · exact Made.touch (w := w.touch r) (made_touch_self w r)
    · exact made_touch_self (w.touch p) r
  cases c with
  | settle p o =>
    exact ⟨_, _, .settle p o, touched p _, List.forall_mem_singleton.mpr (made_touch_self w p)⟩
  | adopt p other => exact ⟨_, _, .adopt p other, twice p other _, both p other⟩
  | watch p f =>
    exact ⟨_, _, .watch p f, touched p _, List.forall_mem_singleton.mpr (made_touch_self w p)⟩
  | wrap p target member path =>
    exact ⟨_, _, .wrap p target member path, twice p target _, both p target⟩
  | link p stage =>
    -- The target comes next once the source is made, so nobody can have seen it.
    have fresh : ¬ w.Made (w.touch p).next := fun made ↦ Made.ne_next (w := w.touch p) made.touch rfl
    have linked := (twice p (w.touch p).next (.observe p (stage.observer (w.touch p).next))).link
      ⟨p, (w.touch p).next, stage⟩
    refine ⟨_, _, .link p (w.touch p).next stage fresh, linked, ?_⟩
    simp only [Chore.mentions, Stage.target?_observer, Option.toList_some]
    exact both p (w.touch p).next

/-! ## What is mentioned was made -/

/-- Who waits for a promise after another is settled, waited for it before. -/
theorem mem_waiting_settle {w : Web ι} {p q : PromiseRef} {r : Settled} {k : Observer ι}
    (waits : k ∈ ((w.settle p r).promise q).waiting) : k ∈ (w.promise q).waiting := by
  by_cases same : q = p
  · subst same
    rw [waiting_settle_self] at waits
    cases waits
  · rwa [promise_settle_of_ne w same] at waits

/-- Who waits for a promise after an observer came, waited before or is that observer. -/
theorem mem_waiting_put {w : Web ι} {p q : PromiseRef} {k k' : Observer ι}
    (waits : k' ∈ ((w.put p (.pending ((w.promise p).waiting ++ [k]))).promise q).waiting) :
    k' ∈ (w.promise q).waiting ∨ q = p ∧ k' = k := by
  by_cases same : q = p
  · subst same
    by_cases made : w.Made q
    · rw [promise_put_self w made] at waits
      simpa [Promise.waiting] using waits
    · rw [put_of_not_made w made] at waits
      exact .inl waits
  · rw [promise_put_of_ne w same] at waits
    exact .inl waits

/-- Who waits after an observer came to a promise without a result: those who waited, and the observer. -/
theorem mem_waiting_observe {w : Web ι} {p q : PromiseRef} {k k' : Observer ι} (made : w.Made p)
    (free : w.result? p = none) :
    k' ∈ ((w.observe p k).promise q).waiting ↔ k' ∈ (w.promise q).waiting ∨ q = p ∧ k' = k := by
  rw [observe_of_none w free]
  refine ⟨mem_waiting_put, fun waits ↦ ?_⟩
  by_cases same : q = p
  · subst same
    rw [promise_put_self w made]
    simpa [Promise.waiting] using waits
  · rw [promise_put_of_ne w same]
    exact waits.resolve_right fun new ↦ same new.1

/-- All promises that are mentioned were made. -/
structure Known (w : Web ι) : Prop where
  /-- by chores -/
  chores : ∀ c ∈ w.chores, ∀ p ∈ c.mentions, w.Made p
  /-- by observers that wait -/
  waiting : ∀ p, ∀ k ∈ (w.promise p).waiting, ∀ t, k.target? = some t → w.Made t
  /-- by links -/
  links : ∀ l ∈ w.links, w.Made l.target
  /-- by stages that got a value -/
  invocations : ∀ i ∈ w.invocations, w.Made i.target

theorem known_ofMemory (memory : Memory ι) : (ofMemory memory).Known := by
  constructor <;> simp [ofMemory, promise, Promise.fresh, Promise.waiting]

namespace Known

variable {w w' : Web ι}

theorem grows (h : w.Known) {chores : List (Chore ι)} {invocations : List Invocation}
    {links : List (Link ι)} (g : w.Grows chores invocations links w')
    (made : ∀ c ∈ chores, ∀ p ∈ c.mentions, w'.Made p) (new : ∀ l ∈ links, w'.Made l.target)
    (invoked : ∀ i ∈ invocations, w'.Made i.target) : w'.Known where
  chores c known p mentioned := by
    rw [g.chores, List.mem_append] at known
    rcases known with old | more
    · exact g.made (h.chores c old p mentioned)
    · exact made c more p mentioned
  waiting p k waits t aims := by
    rw [g.promise] at waits
    exact g.made (h.waiting p k waits t aims)
  links l known := by
    rw [g.links, List.mem_append] at known
    rcases known with old | more
    · exact g.made (h.links l old)
    · exact new l more
  invocations i known := by
    rw [g.invocations, List.mem_append] at known
    rcases known with old | more
    · exact g.made (h.invocations i old)
    · exact invoked i more

theorem take (h : w.Known) (place : Nat) : (w.take place).Known :=
  ⟨fun c known ↦ h.chores c (List.mem_of_mem_eraseIdx known), h.waiting, h.links, h.invocations⟩

theorem report (h : w.Known) (answer : Report) : (w.report answer).Known :=
  ⟨h.chores, h.waiting, h.links, h.invocations⟩

theorem settle (h : w.Known) (p : PromiseRef) (r : Settled) : (w.settle p r).Known where
  chores c known q mentioned := by
    rw [made_settle]
    rw [chores_settle, List.mem_append, List.mem_map] at known
    rcases known with old | ⟨k, waits, rfl⟩
    · exact h.chores c old q mentioned
    · exact h.waiting p k waits q (Option.mem_toList.mp mentioned)
  waiting q k waits t aims := (made_settle w r).mpr (h.waiting q k (mem_waiting_settle waits) t aims)
  links l known := (made_settle w r).mpr (h.links l known)
  invocations i known := (made_settle w r).mpr (h.invocations i known)

theorem observe (h : w.Known) (p : PromiseRef) {k : Observer ι}
    (made : ∀ t, k.target? = some t → w.Made t) : (w.observe p k).Known := by
  cases known : w.result? p with
  | some r =>
    rw [observe_of_some w known]
    refine h.grows (grows_add w w.memory [.react k r]) ?_ (by simp) (by simp)
    rintro c added t mentioned
    rw [List.mem_singleton] at added
    subst added
    exact made t (Option.mem_toList.mp mentioned)
  | none =>
    rw [observe_of_none w known]
    have stays {q : PromiseRef} (there : w.Made q) :
        (w.put p (.pending ((w.promise p).waiting ++ [k]))).Made q := (made_put w _).mpr there
    refine ⟨fun c old q mentioned ↦ stays (h.chores c old q mentioned), ?_,
      fun l old ↦ stays (h.links l old), fun i old ↦ stays (h.invocations i old)⟩
    intro q k' waits t aims
    rcases mem_waiting_put waits with old | ⟨-, rfl⟩
    · exact stays (h.waiting q k' old t aims)
    · exact stays (made t aims)

theorem react (h : w.Known) {k : Observer ι} (made : ∀ t, k.target? = some t → w.Made t)
    (r : Settled) : (w.react k r).Known := by
  rcases react_cases w k r with ⟨target, rfl⟩ | ⟨chores, invocations, reaction, grows, about⟩
  · exact h.settle target r
  · refine h.grows grows ?_ (by simp) fun i added ↦
      grows.made (made i.target (reaction.target?_eq i added))
    intro c added p mentioned
    rcases about c added p mentioned with aims | there
    · exact grows.made (made p aims)
    · exact there

theorem perform (h : w.Known) {c : Chore ι} (made : ∀ p ∈ c.mentions, w.Made p) :
    (w.perform c).Known := by
  cases c with
  | react k r => exact h.react (fun t aims ↦ made t (Option.mem_toList.mpr aims)) r
  | settle p o => exact (h.settle p o.settled).report _
  | adopt p other =>
    rw [Web.perform]
    split
    · exact h.report _
    · refine (h.report _).grows (grows_add _ w.memory [.observe other (.adopt p)]) ?_ (by simp)
        (by simp)
      rintro c added t mentioned
      rw [List.mem_singleton] at added
      subst added
      refine made t ?_
      simp only [Chore.mentions, Observer.target?, Option.toList_some, List.mem_cons] at mentioned ⊢
      tauto
  | observe p k =>
    exact h.observe p fun t aims ↦ made t (List.mem_cons_of_mem p (Option.mem_toList.mpr aims))

theorem call (h : w.Known) (c : Call ι) : (w.call c).Known := by
  obtain ⟨chore, links, start, grows, made⟩ := call_cases w c
  refine h.grows grows (List.forall_mem_singleton.mpr made) ?_ (by simp)
  cases start with
  | link p target stage new =>
    refine List.forall_mem_singleton.mpr (made target ?_)
    simp [Chore.mentions]
  | _ => simp

/-- Every event keeps what is mentioned made. -/
theorem step (h : w.Known) {e : Event ι} (step : w.step? e = some w') : w'.Known := by
  cases e with
  | call c =>
    cases step
    exact h.call c
  | work place =>
    obtain ⟨c, found, rfl⟩ := Option.map_eq_some_iff.mp step
    exact (h.take place).perform (h.chores c (List.mem_of_getElem? found))

end Known

/-- What every event of a run keeps, the run keeps. -/
theorem run_induction {P : Web ι → Prop} {events : List (Event ι)}
    (keeps : ∀ {w w' : Web ι} {e : Event ι}, e ∈ events → P w → w.step? e = some w' → P w')
    {w w' : Web ι} (run : w.run? events = some w') (start : P w) : P w' := by
  induction events generalizing w with
  | nil =>
    cases run
    exact start
  | cons e rest ih =>
    obtain ⟨next, step, run⟩ := Option.bind_eq_some_iff.mp run
    exact ih (fun known ↦ keeps (List.mem_cons_of_mem e known)) run
      (keeps (List.mem_cons_self ..) start step)

end Web

end Troupe
