import Mathlib.Data.List.Perm.Basic
import Troupe.Proofs.Dispatch.Traffic
import Troupe.Scheduler

/-!
# The workers of a scheduler

The queues of a scheduler are shared by everyone who schedules work and by its workers, who touch them only
in locked sections.  A worker polls the queues.  If there is work for it, it takes the work, runs it with
the lock released, and comes back to count it as finished, whether the work returned or panicked.  If there
is none it waits, to poll again at any time, or it leaves once the pool is shutting down.  What work does
while it runs is invisible to the queues but for the work that it schedules, which is a section of its own.
So a run of a pool is a list of such sections, in any order in which they can follow each other;
`Pool.run?` runs them.  The instants at which workers poll are what the clock showed them; nothing here
needs them to be in order.

A pool numbers the work in the order of scheduling.  `Pool.Sound` says what then holds whenever the lock is
free.
-/

namespace Troupe

namespace Scheduler

variable {α : Type}

/-! ## The queues -/

section Queues

variable {s left : Scheduler α} {now : Nat} {work : α}

theorem perm_insertDelayed (d : Delayed α) (ds : List (Delayed α)) :
    (insertDelayed d ds).Perm (d :: ds) := by
  induction ds with
  | nil => exact .refl _
  | cons e rest ih =>
    rw [insertDelayed]
    split
    · exact .refl _
    · exact (ih.cons e).trans (.swap d e rest)

/-- A worker takes the first delayed work if it is due, and the first ready work only if it is not. -/
theorem take?_cases (taken : s.take? now = some (work, left)) :
    (∃ d rest, s.delayed = d :: rest ∧ d.deadline ≤ now ∧ d.work = work ∧
      left = { s with delayed := rest, active := s.active + 1 }) ∨
    ∃ rest, s.ready = work :: rest ∧ (∀ d ∈ s.delayed.head?, now < d.deadline) ∧
      left = { s with ready := rest, active := s.active + 1 } := by
  have ready : ∀ {t : α × Scheduler α}, s.takeReady? = some t →
      ∃ rest, s.ready = t.1 :: rest ∧ t.2 = { s with ready := rest, active := s.active + 1 } := by
    intro t found
    rw [takeReady?] at found
    split at found
    next => cases found
    next first rest queue =>
      cases found
      exact ⟨rest, queue, rfl⟩
  rw [take?] at taken
  split at taken
  next empty =>
    obtain ⟨rest, queue, rfl⟩ := ready taken
    exact .inr ⟨rest, queue, by simp [empty], rfl⟩
  next d rest queue =>
    split at taken
    next due =>
      cases taken
      exact .inl ⟨d, rest, queue, due, rfl, rfl⟩
    next early =>
      obtain ⟨rest, front, rfl⟩ := ready taken
      refine .inr ⟨rest, front, ?_, rfl⟩
      intro e head
      obtain rfl : d = e := by simpa [queue] using head
      exact Nat.lt_of_not_le early

/-- A worker takes nothing only if nothing is ready and nothing is due. -/
theorem take?_eq_none (none : s.take? now = none) :
    s.ready = [] ∧ ∀ d ∈ s.delayed.head?, now < d.deadline := by
  have ready : s.takeReady? = Option.none → s.ready = [] := by
    intro found
    rw [takeReady?] at found
    split at found
    next queue => exact queue
    next => cases found
  rw [take?] at none
  split at none
  next empty => exact ⟨ready none, by simp [empty]⟩
  next d rest queue =>
    split at none
    next => cases none
    next early =>
      refine ⟨ready none, ?_⟩
      intro e head
      obtain rfl : d = e := by simpa [queue] using head
      exact Nat.lt_of_not_le early

/-- Taking work leaves everything else as it was. -/
theorem take?_left (taken : s.take? now = some (work, left)) :
    left.delayed.Sublist s.delayed ∧ left.nextSequence = s.nextSequence ∧
      left.active = s.active + 1 ∧ left.stopping = s.stopping := by
  rcases take?_cases taken with ⟨d, rest, queue, -, -, rfl⟩ | ⟨rest, -, -, rfl⟩
  · rw [queue]
    exact ⟨.cons d (.refl rest), rfl, rfl, rfl⟩
  · exact ⟨.refl _, rfl, rfl, rfl⟩

end Queues

/-! ## Pools -/

/-- A piece of work as it was scheduled. -/
structure Ticket (α : Type) where
  /-- how many works were scheduled before -/
  number : Nat
  /-- the first instant at which the work may be taken, if it was delayed -/
  deadline? : Option Nat
  /-- the work -/
  work : α
deriving DecidableEq, Repr

/-- The work may be taken at once. -/
def Ticket.immediate (t : Ticket α) : Bool := t.deadline?.isNone

@[simp] theorem Ticket.immediate_iff {t : Ticket α} : t.immediate ↔ t.deadline? = none :=
  Option.isNone_iff_eq_none

/-- What a worker has in hand between two of its locked sections. -/
inductive Hand (α : Type) where
  /-- nothing: it will poll -/
  | idle
  /-- a work that it runs -/
  | busy (t : Ticket α)
  /-- nothing any more: it has stopped -/
  | gone
deriving DecidableEq, Repr

/-- The work in the hand. -/
def Hand.ticket? : Hand α → Option (Ticket α)
  | .busy t => some t
  | .idle | .gone => none

/-- A locked section of a pool. -/
inductive Section (α : Type) where
  /-- work is scheduled, by running work or by anybody else -/
  | schedule (work : α)
  /-- work is scheduled for a deadline -/
  | delay (deadline : Nat) (work : α)
  /-- a worker polls the queues, at an instant -/
  | poll (worker now : Nat)
  /-- a worker has run its work, however it ended -/
  | finish (worker : Nat) (ending : Dispatch.Ending)
  /-- the pool begins to shut down: nobody is left who could schedule work -/
  | stop
deriving DecidableEq, Repr

/-- The queues and the workers of a scheduler, and the work that came to it so far. -/
@[ext]
structure Pool (α : Type) where
  /-- the queues -/
  scheduler : Scheduler (Ticket α)
  /-- what the workers have in hand -/
  hands : List (Hand α)
  /-- the work scheduled, the oldest first -/
  scheduled : List (Ticket α)
  /-- the work taken, in order, with the instants at which it was taken -/
  taken : List (Nat × Ticket α)
  /-- the work finished, in order -/
  finished : List (Ticket α)
  /-- the work discarded -/
  discarded : List (Ticket α)
deriving Repr

namespace Pool

variable {p q : Pool α} {worker now : Nat} {t : Ticket α} {left : Scheduler (Ticket α)}

/-- A new pool. -/
def ofWorkers (n : Nat) : Pool α :=
  ⟨.ofWorkers n, List.replicate (max n 1) .idle, [], [], [], []⟩

/-- The work that waits to be taken. -/
def queued (p : Pool α) : List (Ticket α) := p.scheduler.ready ++ p.scheduler.delayed.map Delayed.work

/-- The work that workers run. -/
def running (p : Pool α) : List (Ticket α) := p.hands.filterMap Hand.ticket?

/-- The work that is scheduled next. -/
def ticket (p : Pool α) (deadline? : Option Nat) (work : α) : Ticket α :=
  ⟨p.scheduled.length, deadline?, work⟩

/-- Work is scheduled. -/
def schedule (p : Pool α) (work : α) : Pool α :=
  { p with
    scheduler := p.scheduler.schedule (p.ticket none work)
    scheduled := p.scheduled ++ [p.ticket none work] }

/-- Work is scheduled for a deadline. -/
def delay (p : Pool α) (deadline : Nat) (work : α) : Pool α :=
  { p with
    scheduler := p.scheduler.scheduleAt deadline (p.ticket (some deadline) work)
    scheduled := p.scheduled ++ [p.ticket (some deadline) work] }

/-- A worker takes work at an instant and leaves the queues. -/
def take (p : Pool α) (worker now : Nat) (t : Ticket α) (left : Scheduler (Ticket α)) : Pool α :=
  { p with
    scheduler := left
    hands := p.hands.set worker (.busy t)
    taken := p.taken ++ [(now, t)] }

/-- A worker stops. -/
def leave (p : Pool α) (worker : Nat) : Pool α := { p with hands := p.hands.set worker .gone }

/-- A worker polls the queues. -/
def poll (p : Pool α) (worker now : Nat) : Pool α :=
  match p.scheduler.take? now with
  | some (t, left) => p.take worker now t left
  | none => if p.scheduler.stopping then p.leave worker else p

/-- A worker has run its work. -/
def finish (p : Pool α) (worker : Nat) (t : Ticket α) : Pool α :=
  { p with
    scheduler := p.scheduler.finish
    hands := p.hands.set worker .idle
    finished := p.finished ++ [t] }

/-- The pool begins to shut down. -/
def stop (p : Pool α) : Pool α :=
  { p with
    scheduler := p.scheduler.stop.2
    discarded := p.discarded ++ p.scheduler.stop.1.map Delayed.work }

/-- Runs one locked section.  Only an idle worker polls, only a busy one finishes its work, and nobody
schedules work or shuts the pool down once it is shutting down. -/
def step? (p : Pool α) : Section α → Option (Pool α)
  | .schedule work => if p.scheduler.stopping then none else some (p.schedule work)
  | .delay deadline work => if p.scheduler.stopping then none else some (p.delay deadline work)
  | .poll worker now =>
    match p.hands[worker]? with
    | some .idle => some (p.poll worker now)
    | _ => none
  | .finish worker _ =>
    match p.hands[worker]? with
    | some (.busy t) => some (p.finish worker t)
    | _ => none
  | .stop => if p.scheduler.stopping then none else some p.stop

/-- Runs locked sections one after the other. -/
def run? (p : Pool α) : List (Section α) → Option (Pool α)
  | [] => some p
  | s :: rest => (p.step? s).bind fun p ↦ p.run? rest

/-- What a locked section can do. -/
inductive Step (p : Pool α) : Pool α → Prop
  /-- work is scheduled -/
  | schedule (work : α) (accepting : p.scheduler.stopping = false) : Step p (p.schedule work)
  /-- work is scheduled for a deadline -/
  | delay (deadline : Nat) (work : α) (accepting : p.scheduler.stopping = false) :
    Step p (p.delay deadline work)
  /-- an idle worker takes work -/
  | take (worker now : Nat) (t : Ticket α) (left : Scheduler (Ticket α))
    (idle : p.hands[worker]? = some .idle) (taken : p.scheduler.take? now = some (t, left)) :
    Step p (p.take worker now t left)
  /-- an idle worker stops -/
  | leave (worker now : Nat) (idle : p.hands[worker]? = some .idle)
    (none : p.scheduler.take? now = none) (stopping : p.scheduler.stopping = true) :
    Step p (p.leave worker)
  /-- an idle worker waits -/
  | wait (now : Nat) (none : p.scheduler.take? now = none) (accepting : p.scheduler.stopping = false) :
    Step p p
  /-- a busy worker has run its work -/
  | finish (worker : Nat) (t : Ticket α) (busy : p.hands[worker]? = some (.busy t)) :
    Step p (p.finish worker t)
  /-- the pool begins to shut down -/
  | stop (accepting : p.scheduler.stopping = false) : Step p p.stop

theorem step_of_step? {s : Section α} (step : p.step? s = some q) : p.Step q := by
  cases s with
  | schedule work =>
    rw [step?] at step
    split_ifs at step with stopping
    cases step
    exact .schedule work (by simpa using stopping)
  | delay deadline work =>
    rw [step?] at step
    split_ifs at step with stopping
    cases step
    exact .delay deadline work (by simpa using stopping)
  | poll worker now =>
    rw [step?] at step
    split at step
    next idle =>
      cases step
      rw [poll]
      split
      next t left taken => exact .take worker now t left idle taken
      next none =>
        split_ifs with stopping
        · exact .leave worker now idle none stopping
        · exact .wait now none (by simpa using stopping)
    next => cases step
  | finish worker ending =>
    rw [step?] at step
    split at step
    next t busy =>
      cases step
      exact .finish worker t busy
    next => cases step
  | stop =>
    rw [step?] at step
    split_ifs at step with stopping
    cases step
    exact .stop (by simpa using stopping)

/-- What every section preserves, a run preserves. -/
theorem run_induction {P : Pool α → Prop} (preserved : ∀ {p q : Pool α}, P p → p.Step q → P q)
    {sections : List (Section α)} (run : p.run? sections = some q) (start : P p) : P q := by
  induction sections generalizing p with
  | nil =>
    cases run
    exact start
  | cons s rest ih =>
    obtain ⟨next, step, run⟩ := Option.bind_eq_some_iff.mp run
    exact ih run (preserved start (step_of_step? step))

/-! ## What holds between two sections -/

/-- The order in which delayed works leave the queue, by deadline and number. -/
def Earlier (d e : Delayed (Ticket α)) : Prop :=
  d.deadline < e.deadline ∨ d.deadline = e.deadline ∧ d.work.number < e.work.number

theorem Earlier.trans {d e f : Delayed (Ticket α)} (first : Earlier d e) (second : Earlier e f) :
    Earlier d f := by
  unfold Earlier at *
  omega

/-- The queues agree with the work that came to the pool. -/
structure Sound (p : Pool α) : Prop where
  /-- the work is numbered -/
  numbers : p.scheduled.map Ticket.number = List.range p.scheduled.length
  /-- all work is in one place -/
  account : p.scheduled.Perm (p.finished ++ p.running ++ p.queued ++ p.discarded)
  /-- work that was taken runs or is finished -/
  taken : (p.taken.map Prod.snd).Perm (p.finished ++ p.running)
  /-- running work is counted -/
  active : p.scheduler.active = p.running.length
  /-- immediate work is taken in the order in which it was scheduled -/
  fifo : (p.taken.map Prod.snd).filter Ticket.immediate ++ p.scheduler.ready =
    p.scheduled.filter Ticket.immediate
  /-- delayed work waits for its deadline -/
  deadlines : ∀ d ∈ p.scheduler.delayed, d.work.deadline? = some d.deadline
  /-- it was scheduled -/
  sequences : ∀ d ∈ p.scheduler.delayed,
    d.sequence < p.scheduler.nextSequence ∧ d.work.number < p.scheduled.length
  /-- it waits in the order of deadlines and numbers -/
  sorted : p.scheduler.delayed.Pairwise Earlier
  /-- no delayed work was taken before its deadline -/
  dues : ∀ e ∈ p.taken, ∀ deadline ∈ e.2.deadline?, deadline ≤ e.1
  /-- work is discarded by shutting down only -/
  kept : p.scheduler.stopping = false → p.discarded = []

theorem running_ofWorkers (n : Nat) : (ofWorkers n : Pool α).running = [] := by
  apply List.filterMap_eq_nil_iff.mpr
  intro hand mem
  rw [List.eq_of_mem_replicate mem]
  rfl

theorem sound_ofWorkers (n : Nat) : (ofWorkers n : Pool α).Sound where
  numbers := rfl
  account := by
    rw [running_ofWorkers]
    exact .refl []
  taken := by
    rw [running_ofWorkers]
    exact .refl []
  active := by
    rw [running_ofWorkers]
    rfl
  fifo := rfl
  deadlines := nofun
  sequences := nofun
  sorted := .nil
  dues := nofun
  kept _ := rfl

/-- The next ticket continues the numbers. -/
theorem Sound.numbers_append (h : p.Sound) (deadline? : Option Nat) (work : α) :
    (p.scheduled ++ [p.ticket deadline? work]).map Ticket.number =
      List.range (p.scheduled ++ [p.ticket deadline? work]).length := by
  rw [List.map_append, h.numbers, List.length_append, List.length_singleton, List.range_succ]
  rfl

/-- Work that is scheduled is queued. -/
theorem Sound.account_append (h : p.Sound) {queued : List (Ticket α)}
    (added : queued.Perm (t :: p.queued)) :
    (p.scheduled ++ [t]).Perm (p.finished ++ p.running ++ queued ++ p.discarded) :=
  calc p.scheduled ++ [t]
    _ |>.Perm (t :: p.scheduled) := List.perm_append_singleton t p.scheduled
    _ |>.Perm (t :: (p.finished ++ p.running ++ p.queued ++ p.discarded)) := h.account.cons t
    _ = t :: (p.finished ++ p.running ++ p.queued) ++ p.discarded := rfl
    _ |>.Perm (p.finished ++ p.running ++ t :: p.queued ++ p.discarded) :=
      List.perm_middle.symm.append_right _
    _ |>.Perm (p.finished ++ p.running ++ queued ++ p.discarded) :=
      (added.symm.append_left _).append_right _

theorem Sound.schedule (h : p.Sound) (work : α) :
    (p.schedule work).Sound where
  numbers := h.numbers_append none work
  account := by
    apply h.account_append
    simp only [queued, Pool.schedule, Scheduler.schedule, List.append_assoc, List.singleton_append]
    exact List.perm_middle
  taken := h.taken
  active := h.active
  fifo := by
    have immediate : (p.ticket none work).immediate = true := rfl
    simp only [Pool.schedule, Scheduler.schedule, List.filter_append, ← h.fifo,
      List.filter_cons_of_pos immediate, List.filter_nil, List.append_assoc]
  deadlines := h.deadlines
  sequences d mem := by
    obtain ⟨before, known⟩ := h.sequences d mem
    refine ⟨before, Nat.lt_trans known ?_⟩
    simp [Pool.schedule]
  sorted := h.sorted
  dues := h.dues
  kept := h.kept

/-- Delayed work with the highest number finds its place in the order. -/
theorem sorted_insertDelayed {d : Delayed (Ticket α)} {ds : List (Delayed (Ticket α))}
    (sorted : ds.Pairwise Earlier)
    (newest : ∀ e ∈ ds, e.sequence < d.sequence ∧ e.work.number < d.work.number) :
    (insertDelayed d ds).Pairwise Earlier := by
  induction ds with
  | nil => exact List.pairwise_singleton _ d
  | cons e rest ih =>
    obtain ⟨first, later⟩ := List.pairwise_cons.mp sorted
    obtain ⟨sequence, number⟩ := newest e List.mem_cons_self
    rw [insertDelayed]
    split_ifs with before
    · have earlier : Earlier d e := by
        simp only [Delayed.before, Bool.or_eq_true, decide_eq_true_eq, Bool.and_eq_true, beq_iff_eq]
          at before
        exact .inl (before.resolve_right fun tie ↦ absurd tie.2 (Nat.lt_asymm sequence))
      refine List.pairwise_cons.mpr ⟨?_, sorted⟩
      intro f mem
      rcases List.mem_cons.mp mem with rfl | mem
      · exact earlier
      · exact earlier.trans (first f mem)
    · have earlier : Earlier e d := by
        simp only [Delayed.before, Bool.or_eq_true, decide_eq_true_eq, Bool.and_eq_true, beq_iff_eq]
          at before
        unfold Earlier
        omega
      refine List.pairwise_cons.mpr ⟨?_, ih later fun f mem ↦ newest f (List.mem_cons_of_mem _ mem)⟩
      intro f mem
      rcases List.mem_cons.mp ((perm_insertDelayed d rest).mem_iff.mp mem) with rfl | mem
      · exact earlier
      · exact first f mem

theorem Sound.delay (h : p.Sound) (deadline : Nat) (work : α) :
    (p.delay deadline work).Sound where
  numbers := h.numbers_append (some deadline) work
  account := by
    apply h.account_append
    have added := perm_insertDelayed
      ⟨deadline, p.scheduler.nextSequence, p.ticket (some deadline) work⟩ p.scheduler.delayed
    exact ((added.map Delayed.work).append_left _).trans List.perm_middle
  taken := h.taken
  active := h.active
  fifo := by
    have delayed : ¬ (p.ticket (some deadline) work).immediate = true := nofun
    simp only [Pool.delay, Scheduler.scheduleAt, List.filter_append,
      List.filter_cons_of_neg delayed, List.filter_nil, List.append_nil]
    exact h.fifo
  deadlines d mem := by
    rcases List.mem_cons.mp ((perm_insertDelayed _ _).mem_iff.mp mem) with rfl | old
    · rfl
    · exact h.deadlines d old
  sequences d mem := by
    have length : (p.delay deadline work).scheduled.length = p.scheduled.length + 1 := by
      simp [Pool.delay]
    rw [length]
    rcases List.mem_cons.mp ((perm_insertDelayed _ _).mem_iff.mp mem) with rfl | old
    · exact ⟨Nat.lt_succ_self _, Nat.lt_succ_self _⟩
    · obtain ⟨before, known⟩ := h.sequences d old
      exact ⟨Nat.lt_succ_of_lt before, Nat.lt_succ_of_lt known⟩
  sorted := sorted_insertDelayed h.sorted h.sequences
  dues := h.dues
  kept := h.kept

/-- What a list holds but for one place. -/
theorem perm_set {β : Type} {l : List β} {place : Nat} {x : β} (found : l[place]? = some x) (y : β) :
    (x :: l.set place y).Perm (y :: l) := by
  induction l generalizing place with
  | nil => simp at found
  | cons z rest ih =>
    cases place with
    | zero =>
      obtain rfl : z = x := by simpa using found
      exact .swap y z rest
    | succ place =>
      calc x :: z :: rest.set place y
        _ |>.Perm (z :: x :: rest.set place y) := .swap _ _ _
        _ |>.Perm (z :: y :: rest) := (ih (by simpa using found)).cons z
        _ |>.Perm (y :: z :: rest) := .swap _ _ _

/-- An idle worker gets something to run. -/
theorem running_set_busy (idle : p.hands[worker]? = some .idle) :
    ((p.hands.set worker (.busy t)).filterMap Hand.ticket?).Perm (t :: p.running) :=
  (perm_set idle (.busy t)).filterMap Hand.ticket?

/-- A busy worker is done. -/
theorem running_set_idle (busy : p.hands[worker]? = some (.busy t)) :
    p.running.Perm (t :: (p.hands.set worker .idle).filterMap Hand.ticket?) :=
  ((perm_set busy .idle).filterMap Hand.ticket?).symm

/-- An idle worker that stops runs nothing. -/
theorem running_set_gone (idle : p.hands[worker]? = some .idle) :
    ((p.hands.set worker .gone).filterMap Hand.ticket?).Perm p.running :=
  (perm_set idle .gone).filterMap Hand.ticket?

/-- Work that is taken is queued before and runs after. -/
theorem queued_of_take? (taken : p.scheduler.take? now = some (t, left)) :
    p.queued.Perm (t :: (left.ready ++ left.delayed.map Delayed.work)) := by
  rcases take?_cases taken with ⟨d, rest, queue, -, rfl, rfl⟩ | ⟨rest, queue, -, rfl⟩
  · rw [queued, queue]
    exact List.perm_middle
  · rw [queued, queue]
    exact .refl _

theorem Sound.immediate_of_mem_ready (h : p.Sound) (mem : t ∈ p.scheduler.ready) :
    t.immediate = true := by
  have among : t ∈ p.scheduled.filter Ticket.immediate := by
    rw [← h.fifo]
    exact List.mem_append_right _ mem
  exact (List.mem_filter.mp among).2

theorem Sound.take (h : p.Sound) (idle : p.hands[worker]? = some .idle)
    (taken : p.scheduler.take? now = some (t, left)) : (p.take worker now t left).Sound where
  numbers := h.numbers
  account := by
    have moved : (p.running ++ p.queued).Perm
        ((p.take worker now t left).running ++ (p.take worker now t left).queued) :=
      calc p.running ++ p.queued
        _ |>.Perm (p.running ++ t :: (p.take worker now t left).queued) :=
          (queued_of_take? taken).append_left _
        _ |>.Perm (t :: p.running ++ (p.take worker now t left).queued) := List.perm_middle
        _ |>.Perm _ := (running_set_busy idle).symm.append_right _
    refine h.account.trans (List.Perm.append_right _ ?_)
    rw [List.append_assoc, List.append_assoc]
    exact moved.append_left _
  taken := by
    have added : ((p.take worker now t left).taken.map Prod.snd) = p.taken.map Prod.snd ++ [t] := by
      simp [Pool.take]
    rw [added]
    calc p.taken.map Prod.snd ++ [t]
      _ |>.Perm (p.finished ++ p.running ++ [t]) := h.taken.append_right _
      _ = p.finished ++ (p.running ++ [t]) := List.append_assoc _ _ _
      _ |>.Perm (p.finished ++ t :: p.running) := (List.perm_append_singleton t _).append_left _
      _ |>.Perm _ := (running_set_busy idle).symm.append_left _
  active := by
    have counted : (p.take worker now t left).running.length = p.running.length + 1 :=
      (running_set_busy idle).length_eq
    rw [counted, ← h.active]
    exact (take?_left taken).2.2.1
  fifo := by
    refine Eq.trans ?_ h.fifo
    simp only [Pool.take, List.map_append, List.map_cons, List.map_nil, List.filter_append,
      List.append_assoc]
    congr 1
    rcases take?_cases taken with ⟨d, rest, queue, -, rfl, rfl⟩ | ⟨rest, queue, -, rfl⟩
    · have delayed : ¬ d.work.immediate = true := by
        rw [Ticket.immediate_iff, h.deadlines d (by simp [queue])]
        nofun
      rw [List.filter_cons_of_neg delayed]
      rfl
    · have immediate : t.immediate = true := h.immediate_of_mem_ready (by simp [queue])
      rw [List.filter_cons_of_pos immediate, queue]
      rfl
  deadlines d mem := h.deadlines d ((take?_left taken).1.subset mem)
  sequences d mem := by
    obtain ⟨kept, sequence, -, -⟩ := take?_left taken
    have known := h.sequences d (kept.subset mem)
    rwa [← sequence] at known
  sorted := h.sorted.sublist (take?_left taken).1
  dues e mem := by
    rcases List.mem_append.mp mem with old | new
    · exact h.dues e old
    · obtain rfl := List.mem_singleton.mp new
      intro deadline due
      rcases take?_cases taken with ⟨d, rest, queue, early, rfl, -⟩ | ⟨rest, queue, -, -⟩
      · rw [h.deadlines d (by simp [queue])] at due
        cases due
        exact early
      · rw [Ticket.immediate_iff.mp (h.immediate_of_mem_ready (by simp [queue]))] at due
        cases due
  kept accepting := h.kept ((take?_left taken).2.2.2.symm.trans accepting)

theorem Sound.leave (h : p.Sound) (idle : p.hands[worker]? = some .idle) : (p.leave worker).Sound where
  numbers := h.numbers
  account := by
    refine h.account.trans (List.Perm.append_right _ (List.Perm.append_right _ ?_))
    exact (running_set_gone idle).symm.append_left _
  taken := h.taken.trans ((running_set_gone idle).symm.append_left _)
  active := h.active.trans (running_set_gone idle).length_eq.symm
  fifo := h.fifo
  deadlines := h.deadlines
  sequences := h.sequences
  sorted := h.sorted
  dues := h.dues
  kept := h.kept

theorem Sound.finish (h : p.Sound) (busy : p.hands[worker]? = some (.busy t)) :
    (p.finish worker t).Sound := by
  have moved : (p.finished ++ p.running).Perm
      ((p.finish worker t).finished ++ (p.finish worker t).running) := by
    refine ((running_set_idle busy).append_left _).trans ?_
    exact .of_eq (List.append_cons _ _ _)
  exact {
    numbers := h.numbers
    account := h.account.trans ((moved.append_right _).append_right _)
    taken := h.taken.trans moved
    active := by
      have counted : p.running.length = (p.finish worker t).running.length + 1 :=
        (running_set_idle busy).length_eq
      have active := h.active
      have fewer : (p.finish worker t).scheduler.active = p.scheduler.active - 1 := rfl
      omega
    fifo := h.fifo
    deadlines := h.deadlines
    sequences := h.sequences
    sorted := h.sorted
    dues := h.dues
    kept := h.kept }

theorem Sound.stop (h : p.Sound) : p.stop.Sound where
  numbers := h.numbers
  account := by
    refine h.account.trans ?_
    simp only [Pool.stop, queued, Scheduler.stop, List.map_nil, List.append_nil, List.append_assoc]
    exact (List.perm_append_comm.append_left _).append_left _ |>.append_left _
  taken := h.taken
  active := h.active
  fifo := h.fifo
  deadlines := nofun
  sequences := nofun
  sorted := .nil
  dues := h.dues
  kept := nofun

/-- One section keeps the pool sound. -/
theorem Sound.step (h : p.Sound) (step : p.Step q) : q.Sound := by
  cases step with
  | schedule work accepting => exact h.schedule work
  | delay deadline work accepting => exact h.delay deadline work
  | take worker now t left idle taken => exact h.take idle taken
  | leave worker now idle none stopping => exact h.leave idle
  | wait now none accepting => exact h
  | finish worker t busy => exact h.finish busy
  | stop accepting => exact h.stop

/-- Any run keeps the pool sound. -/
theorem sound_of_run {n : Nat} {sections : List (Section α)}
    (run : (ofWorkers n).run? sections = some p) : p.Sound :=
  run_induction Sound.step run (sound_ofWorkers n)

end Pool

end Scheduler

end Troupe
