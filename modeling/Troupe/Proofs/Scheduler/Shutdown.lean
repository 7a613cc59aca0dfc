import Troupe.Proofs.Scheduler.Order

/-!
# Shutting down

When nobody is left who could schedule work, the pool discards the work that still waits for a deadline, due
or not, and its workers take what is ready until nothing is left, and stop.

* `Pool.stop_drains`: the ready work runs once each, in order, what was delayed is what is discarded, and
  the workers come to a stop;
* `Pool.stop_discards_due`: work that was due, but for which no worker was free, is discarded with the rest.
-/

namespace Troupe

namespace Scheduler

variable {α : Type}

/-- The worker has not stopped. -/
def Hand.here : Hand α → Bool
  | .idle | .busy _ => true
  | .gone => false

namespace Pool

variable {p q r : Pool α} {worker : Nat} {t : Ticket α}

/-- How many locked sections are still to come, if no more work is scheduled: each ready work is taken and
finished, each running work is finished, and each worker stops. -/
def ahead (p : Pool α) : Nat :=
  2 * p.scheduler.ready.length + p.running.length + p.hands.countP Hand.here

/-- What holds of the workers whenever the lock is free. -/
structure Manned (p : Pool α) : Prop where
  /-- there are workers -/
  hands : p.hands ≠ []
  /-- a worker stops only when the pool shuts down and nothing is ready -/
  gone : .gone ∈ p.hands → p.scheduler.stopping = true ∧ p.scheduler.ready = []
  /-- no work waits for a deadline while the pool shuts down -/
  delayed : p.scheduler.stopping = true → p.scheduler.delayed = []

theorem manned_ofWorkers (n : Nat) : (ofWorkers n : Pool α).Manned where
  hands := by simp [ofWorkers]
  gone mem := by cases List.eq_of_mem_replicate mem
  delayed _ := rfl

theorem Manned.set_ne_nil (h : p.Manned) (hand : Hand α) : p.hands.set worker hand ≠ [] := by
  simpa using h.hands

/-- While the pool shuts down, only ready work is taken. -/
theorem Manned.ready_of_take? (h : p.Manned) (stopping : p.scheduler.stopping = true) {now : Nat}
    {left : Scheduler (Ticket α)} (taken : p.scheduler.take? now = some (t, left)) :
    ∃ rest, p.scheduler.ready = t :: rest ∧
      left = { p.scheduler with ready := rest, active := p.scheduler.active + 1 } := by
  rcases take?_cases taken with ⟨d, rest, queue, -⟩ | ⟨rest, queue, -, same⟩
  · rw [h.delayed stopping] at queue
    cases queue
  · exact ⟨rest, queue, same⟩

/-- One section keeps the pool manned. -/
theorem Manned.step (h : p.Manned) (step : p.Step q) : q.Manned := by
  have nobodyGone : p.scheduler.stopping = false → .gone ∉ p.hands := by
    intro accepting mem
    have stopping := (h.gone mem).1
    rw [accepting] at stopping
    cases stopping
  cases step with
  | schedule work accepting =>
    refine ⟨h.hands, fun mem ↦ absurd mem (nobodyGone accepting), fun stopping ↦ ?_⟩
    exact absurd (accepting.symm.trans stopping) nofun
  | delay deadline work accepting =>
    refine ⟨h.hands, fun mem ↦ absurd mem (nobodyGone accepting), fun stopping ↦ ?_⟩
    exact absurd (accepting.symm.trans stopping) nofun
  | take worker now t left idle taken =>
    obtain ⟨kept, -, -, same⟩ := take?_left taken
    refine ⟨h.set_ne_nil _, fun mem ↦ ?_, fun stopping ↦ ?_⟩
    · obtain ⟨stopping, ready⟩ := h.gone ((List.mem_or_eq_of_mem_set mem).resolve_right nofun)
      obtain ⟨rest, queue, -⟩ := h.ready_of_take? stopping taken
      rw [ready] at queue
      cases queue
    · have empty := h.delayed (same.symm.trans stopping)
      rw [empty] at kept
      exact List.sublist_nil.mp kept
  | leave worker now idle none stopping =>
    exact ⟨h.set_ne_nil _, fun _ ↦ ⟨stopping, (take?_eq_none none).1⟩, h.delayed⟩
  | wait now none accepting => exact h
  | finish worker t busy =>
    refine ⟨h.set_ne_nil _, fun mem ↦ ?_, h.delayed⟩
    exact h.gone ((List.mem_or_eq_of_mem_set mem).resolve_right nofun)
  | stop accepting =>
    exact ⟨h.hands, fun mem ↦ absurd mem (nobodyGone accepting), fun _ ↦ rfl⟩

theorem manned_of_run {n : Nat} {sections : List (Section α)}
    (run : (ofWorkers n).run? sections = some p) : p.Manned :=
  run_induction Manned.step run (manned_ofWorkers n)

/-- A pool `r` that has been shutting down since it was `p`. -/
structure Draining (p r : Pool α) : Prop extends Manned r where
  /-- nobody schedules work any more -/
  stopping : r.scheduler.stopping = true
  /-- nothing was scheduled since -/
  scheduled : r.scheduled = p.scheduled
  /-- the delayed work was discarded, and nothing else -/
  discarded : r.discarded = p.discarded ++ p.scheduler.delayed.map Delayed.work
  /-- the ready work is taken in order, once each -/
  order : ∃ later, r.taken = p.taken ++ later ∧
    later.map Prod.snd ++ r.scheduler.ready = p.scheduler.ready

theorem Manned.stop (h : p.Manned) (accepting : p.scheduler.stopping = false) : p.Draining p.stop where
  toManned := h.step (.stop accepting)
  stopping := rfl
  scheduled := rfl
  discarded := rfl
  order := ⟨[], (List.append_nil _).symm, rfl⟩

/-- One section goes on with the shutdown. -/
theorem Draining.step (h : p.Draining q) (step : q.Step r) : p.Draining r := by
  have refuse : q.scheduler.stopping ≠ false := by simp [h.stopping]
  have manned := h.toManned.step step
  cases step with
  | schedule work accepting => exact absurd accepting refuse
  | delay deadline work accepting => exact absurd accepting refuse
  | take worker now t left idle taken =>
    obtain ⟨rest, queue, rfl⟩ := h.ready_of_take? h.stopping taken
    obtain ⟨later, before, order⟩ := h.order
    refine ⟨manned, h.stopping, h.scheduled, h.discarded, later ++ [(now, t)], ?_, ?_⟩
    · simp [Pool.take, before]
    · rw [← order, queue]
      simp [Pool.take]
  | leave worker now idle none stopping =>
    exact ⟨manned, h.stopping, h.scheduled, h.discarded, h.order⟩
  | wait now none accepting => exact absurd accepting refuse
  | finish worker t busy => exact ⟨manned, h.stopping, h.scheduled, h.discarded, h.order⟩
  | stop accepting => exact absurd accepting refuse

/-- Every section brings the shutdown nearer to its end. -/
theorem Draining.ahead_step (h : p.Draining q) (step : q.Step r) : r.ahead + 1 = q.ahead := by
  have refuse : q.scheduler.stopping ≠ false := by simp [h.stopping]
  have workers : ∀ {worker : Nat} {x : Hand α} (y : Hand α), q.hands[worker]? = some x →
      (x :: q.hands.set worker y).countP Hand.here = (y :: q.hands).countP Hand.here :=
    fun y found ↦ (perm_set found y).countP_eq _
  cases step with
  | schedule work accepting => exact absurd accepting refuse
  | delay deadline work accepting => exact absurd accepting refuse
  | take worker now t left idle taken =>
    obtain ⟨rest, queue, rfl⟩ := h.ready_of_take? h.stopping taken
    have here := workers (.busy t) idle
    have running := (running_set_busy (t := t) idle).length_eq
    simp only [List.countP_cons, Hand.here, List.length_cons] at here running
    simp only [ahead, Pool.running, Pool.take, queue, List.length_cons] at running ⊢
    omega
  | leave worker now idle none stopping =>
    have here := workers .gone idle
    have running := (running_set_gone idle).length_eq
    simp only [List.countP_cons, Hand.here, if_true, Bool.false_eq_true, if_false] at here
    simp only [ahead, Pool.running, Pool.leave] at running ⊢
    omega
  | wait now none accepting => exact absurd accepting refuse
  | finish worker t busy =>
    have here := workers .idle busy
    have running := (running_set_idle busy).length_eq
    simp only [List.countP_cons, Hand.here, List.length_cons] at here running
    simp only [ahead, Pool.running, Pool.finish, Scheduler.finish] at running ⊢
    omega
  | stop accepting => exact absurd accepting refuse

/-- A run of the shutdown takes as many sections as it comes nearer to the end. -/
theorem Draining.run {sections : List (Section α)} (h : p.Draining q)
    (run : q.run? sections = some r) : p.Draining r ∧ sections.length + r.ahead = q.ahead := by
  induction sections generalizing q with
  | nil =>
    cases run
    exact ⟨h, Nat.zero_add _⟩
  | cons s rest ih =>
    obtain ⟨next, step, run⟩ := Option.bind_eq_some_iff.mp run
    obtain ⟨drained, nearer⟩ := ih (h.step (step_of_step? step)) run
    have one := h.ahead_step (step_of_step? step)
    refine ⟨drained, ?_⟩
    rw [List.length_cons]
    omega

/-- A worker that has not stopped can go on. -/
theorem exists_step_of_mem {hand : Hand α} (mem : hand ∈ p.hands) (here : hand ≠ .gone) :
    ∃ s q, p.step? s = some q := by
  obtain ⟨worker, found⟩ := List.mem_iff_getElem?.mp mem
  cases hand with
  | idle => exact ⟨.poll worker 0, p.poll worker 0, by simp [step?, found]⟩
  | busy t => exact ⟨.finish worker .returned, p.finish worker t, by simp [step?, found]⟩
  | gone => exact absurd rfl here

/-- Workers that have stopped run nothing. -/
theorem running_eq_nil (gone : ∀ hand ∈ p.hands, hand = .gone) : p.running = [] := by
  apply List.filterMap_eq_nil_iff.mpr
  intro hand mem
  rw [gone hand mem]
  rfl

/-- Workers that have all stopped have left nothing. -/
theorem Manned.queued_eq_nil (h : p.Manned) (gone : ∀ hand ∈ p.hands, hand = .gone) : p.queued = [] := by
  obtain ⟨hand, mem⟩ := List.exists_mem_of_ne_nil _ h.hands
  obtain rfl := gone hand mem
  obtain ⟨stopping, ready⟩ := h.gone mem
  rw [queued, ready, h.delayed stopping]
  rfl

/-- From the moment at which the pool begins to shut down, nothing is scheduled, and the work that is
discarded is all the work that was delayed; so it is work that is not due only if none was due.  The ready
work is taken in order, once each.  As long as a worker has not stopped, one can go on, and each time it
comes nearer to the end; when all have stopped, all work that was not discarded is finished, once each. -/
theorem stop_drains {n : Nat} {sections rest : List (Section α)} {p q r : Pool α}
    (run : (ofWorkers n).run? sections = some p) (stop : p.step? .stop = some q)
    (onward : q.run? rest = some r) :
    r.scheduled = p.scheduled ∧ r.discarded = p.scheduler.delayed.map Delayed.work ∧
    (∀ now, (∀ t ∈ r.discarded, ¬ t.Due now) ↔ ∀ d ∈ p.scheduler.delayed, now < d.deadline) ∧
    (∃ later, r.taken = p.taken ++ later ∧
      later.map Prod.snd ++ r.scheduler.ready = p.scheduler.ready) ∧
    ((∃ hand ∈ r.hands, hand ≠ .gone) → ∃ s next, r.step? s = some next) ∧
    rest.length + r.ahead = p.ahead ∧
    ((∀ hand ∈ r.hands, hand = .gone) → r.scheduler.ready = [] ∧
      r.scheduled.Perm (r.finished ++ r.discarded) ∧ (r.finished.map Ticket.number).Nodup) := by
  have sound := sound_of_run run
  obtain ⟨accepting, rfl⟩ : p.scheduler.stopping = false ∧ p.stop = q := by simpa [step?] using stop
  obtain ⟨drained, nearer⟩ := ((manned_of_run run).stop accepting).run onward
  have discarded : r.discarded = p.scheduler.delayed.map Delayed.work := by
    rw [drained.discarded, sound.kept accepting, List.nil_append]
  have after : r.Sound := run_induction Sound.step onward sound.stop
  refine ⟨drained.scheduled, discarded, ?_, drained.order, ?_, nearer, ?_⟩
  · intro now
    have due : ∀ d ∈ p.scheduler.delayed, ¬ d.work.Due now ↔ now < d.deadline := by
      intro d mem
      simp [Ticket.Due, sound.deadlines d mem]
    rw [discarded, List.forall_mem_map]
    exact forall₂_congr due
  · rintro ⟨hand, mem, here⟩
    exact exists_step_of_mem mem here
  · intro gone
    have empty := drained.queued_eq_nil gone
    have account := after.account
    rw [running_eq_nil gone, empty, List.append_nil, List.append_nil] at account
    refine ⟨(List.append_eq_nil_iff.mp empty).1, account, ?_⟩
    have distinct := (account.map Ticket.number).nodup_iff.mp after.conserved.distinct
    rw [List.map_append] at distinct
    exact (List.nodup_append.mp distinct).1

/-- The only worker is busy when the pool begins to shut down; it takes what is ready and stops. -/
theorem stop_drains_while_busy :
    ∃ p q r, (ofWorkers 1 : Pool String).run? [.schedule "a", .poll 0 0, .delay 5 "b", .schedule "c"]
        = some p ∧
      p.step? .stop = some q ∧ q.run? [.finish 0 .returned, .poll 0 3, .finish 0 .returned, .poll 0 4]
        = some r ∧
      r.finished.map Ticket.work = ["a", "c"] ∧ r.discarded.map Ticket.work = ["b"] ∧
      r.scheduler.ready = [] ∧ r.scheduled.Perm (r.finished ++ r.discarded) := by
  have run : (ofWorkers 1 : Pool String).run? [.schedule "a", .poll 0 0, .delay 5 "b", .schedule "c"]
      = some _ := rfl
  refine ⟨_, _, _, run, rfl, rfl, rfl, rfl, ?_⟩
  obtain ⟨-, -, -, -, -, -, stopped⟩ := stop_drains run rfl
    (show run? _ [.finish 0 .returned, .poll 0 3, .finish 0 .returned, .poll 0 4] = some _ from rfl)
  obtain ⟨ready, account, -⟩ := stopped (by decide)
  exact ⟨ready, account⟩

/-- Work whose deadline has come, at the instant 6, while the only worker is busy is discarded when the pool
begins to shut down, and is never run. -/
theorem stop_discards_due :
    ∃ p q r, (ofWorkers 1 : Pool String).run? [.schedule "a", .poll 0 0, .delay 5 "b"] = some p ∧
      p.step? .stop = some q ∧ q.run? [.finish 0 .returned, .poll 0 6] = some r ∧
      r.hands = [.gone] ∧
      ∃ t ∈ p.queued, t.Due 6 ∧ t ∈ r.discarded ∧ t ∉ r.finished := by
  refine ⟨_, _, _, rfl, rfl, rfl, rfl, ⟨1, some 5, "b"⟩, ?_, ?_, ?_, ?_⟩
  · decide
  · simp [Ticket.Due]
  · decide
  · decide

end Pool

end Scheduler

end Troupe
