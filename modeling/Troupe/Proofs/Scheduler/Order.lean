import Troupe.Proofs.Scheduler.Pool

/-!
# The order of work

Which of two queued works a worker takes first depends on the instant at which it asks: a due one goes ahead
of an immediate one, and an immediate one ahead of one that is not due (`Scheduler.Ticket.Ahead`).  Among
delayed works the earlier deadline goes first, and otherwise the work that was scheduled first.

`Pool.run_orderly` says that in every run a worker that polls takes the work that goes ahead of all others,
if any may be taken, and that no work is lost, taken twice or counted wrongly, whatever becomes of the work
that runs.
-/

namespace Troupe

namespace Scheduler

variable {α : Type}

/-- The work may be taken at an instant. -/
def Ticket.Due (now : Nat) (t : Ticket α) : Prop := ∀ deadline ∈ t.deadline?, deadline ≤ now

/-- A work that may be taken at an instant is taken before another. -/
def Ticket.Ahead (now : Nat) (t u : Ticket α) : Prop :=
  match t.deadline?, u.deadline? with
  | some d, some e => d < e ∨ d = e ∧ t.number < u.number
  | some _, none => True
  | none, some e => now < e
  | none, none => t.number < u.number

namespace Pool

variable {p q : Pool α} {worker now : Nat} {t : Ticket α}

/-- All work that was scheduled is accounted for, and the counters are right. -/
structure Conserved (p : Pool α) : Prop where
  /-- no two works have one number -/
  distinct : (p.scheduled.map Ticket.number).Nodup
  /-- no work is taken twice -/
  once : (p.taken.map fun e ↦ e.2.number).Nodup
  /-- work that was taken runs or is finished -/
  taken : (p.taken.map Prod.snd).Perm (p.finished ++ p.running)
  /-- work that was scheduled is finished, runs, waits, or was discarded -/
  account : p.scheduled.Perm (p.finished ++ p.running ++ p.queued ++ p.discarded)
  /-- before the shutdown nothing is discarded -/
  kept : p.scheduler.stopping = false → p.discarded = []
  /-- before the shutdown all work that is not finished is pending -/
  pending : p.scheduler.stopping = false →
    p.scheduler.pending + p.finished.length = p.scheduled.length
  /-- immediate work is taken in the order in which it was scheduled -/
  fifo : (p.taken.map Prod.snd).filter Ticket.immediate ++ p.scheduler.ready =
    p.scheduled.filter Ticket.immediate
  /-- delayed work is not taken before its deadline -/
  due : ∀ e ∈ p.taken, e.2.Due e.1

/-- What becomes of a pool when a worker polls the queues at an instant. -/
inductive Served (p : Pool α) (worker now : Nat) (q : Pool α) : Prop
  /-- it takes the work that goes ahead of all others -/
  | takes (t : Ticket α) (queued : t ∈ p.queued) (due : t.Due now)
    (first : ∀ u ∈ p.queued, u = t ∨ t.Ahead now u) (busy : q.hands[worker]? = some (.busy t))
    (taken : q.taken = p.taken ++ [(now, t)])
  /-- it takes nothing, as nothing may be taken -/
  | nothing (early : ∀ u ∈ p.queued, ¬ u.Due now) (taken : q.taken = p.taken)

theorem Sound.conserved (h : p.Sound) : p.Conserved := by
  have distinct : (p.scheduled.map Ticket.number).Nodup := by
    rw [h.numbers]
    exact List.nodup_range
  refine ⟨distinct, ?_, h.taken, h.account, h.kept, ?_, h.fifo, h.dues⟩
  · have placed := (h.account.map Ticket.number).nodup_iff.mp distinct
    rw [List.append_assoc, List.map_append] at placed
    have taken := (h.taken.map Ticket.number).nodup_iff.mpr (List.nodup_append.mp placed).1
    rwa [List.map_map] at taken
  · intro accepting
    have lengths := h.account.length_eq
    rw [h.kept accepting] at lengths
    simp only [queued, List.length_append, List.length_map, List.length_nil] at lengths
    rw [Scheduler.pending, h.active]
    omega

/-- Ready work waits in the order of its numbers. -/
theorem Sound.ready_ascending (h : p.Sound) :
    p.scheduler.ready.Pairwise fun t u ↦ t.number < u.number := by
  have ascending : p.scheduled.Pairwise fun t u ↦ t.number < u.number := by
    rw [← List.pairwise_map, h.numbers]
    exact List.pairwise_lt_range
  have immediate := ascending.filter Ticket.immediate
  rw [← h.fifo] at immediate
  exact (List.pairwise_append.mp immediate).2.1

/-- If the first delayed work is not due, none is. -/
theorem Sound.lt_deadline (h : p.Sound) (early : ∀ d ∈ p.scheduler.delayed.head?, now < d.deadline) :
    ∀ d ∈ p.scheduler.delayed, now < d.deadline := by
  have sorted := h.sorted
  intro d mem
  cases queue : p.scheduler.delayed with
  | nil =>
    rw [queue] at mem
    cases mem
  | cons first rest =>
    rw [queue] at mem sorted early
    have before : now < first.deadline := early first rfl
    rcases List.mem_cons.mp mem with rfl | later
    · exact before
    · rcases (List.pairwise_cons.mp sorted).1 d later with less | ⟨tie, -⟩ <;> omega

/-- The first delayed work goes ahead of all others once it is due. -/
theorem Sound.first_delayed (h : p.Sound) {d : Delayed (Ticket α)} {rest : List (Delayed (Ticket α))}
    (queue : p.scheduler.delayed = d :: rest) :
    ∀ u ∈ p.queued, u = d.work ∨ d.work.Ahead now u := by
  have deadline : d.work.deadline? = some d.deadline := h.deadlines d (by simp [queue])
  have sorted := h.sorted
  rw [queue] at sorted
  intro u mem
  rcases List.mem_append.mp mem with ready | delayed
  · right
    rw [Ticket.Ahead, deadline, Ticket.immediate_iff.mp (h.immediate_of_mem_ready ready)]
    trivial
  · obtain ⟨e, among, rfl⟩ := List.mem_map.mp delayed
    have other : e.work.deadline? = some e.deadline := h.deadlines e among
    rw [queue] at among
    rcases List.mem_cons.mp among with rfl | later
    · exact .inl rfl
    · right
      rw [Ticket.Ahead, deadline, other]
      exact (List.pairwise_cons.mp sorted).1 e later

/-- The first ready work goes ahead of all others as long as nothing delayed is due. -/
theorem Sound.first_ready (h : p.Sound) {rest : List (Ticket α)} (queue : p.scheduler.ready = t :: rest)
    (early : ∀ d ∈ p.scheduler.delayed.head?, now < d.deadline) :
    ∀ u ∈ p.queued, u = t ∨ t.Ahead now u := by
  have immediate : t.deadline? = none :=
    Ticket.immediate_iff.mp (h.immediate_of_mem_ready (by simp [queue]))
  have ascending := h.ready_ascending
  rw [queue] at ascending
  intro u mem
  rcases List.mem_append.mp mem with ready | delayed
  · have other := Ticket.immediate_iff.mp (h.immediate_of_mem_ready ready)
    rw [queue] at ready
    rcases List.mem_cons.mp ready with rfl | later
    · exact .inl rfl
    · right
      rw [Ticket.Ahead, immediate, other]
      exact (List.pairwise_cons.mp ascending).1 u later
  · obtain ⟨e, among, rfl⟩ := List.mem_map.mp delayed
    right
    rw [Ticket.Ahead, immediate, h.deadlines e among]
    exact h.lt_deadline early e among

/-- If no work is taken, none may be taken. -/
theorem Sound.not_due (h : p.Sound) (none : p.scheduler.take? now = none) :
    ∀ u ∈ p.queued, ¬ u.Due now := by
  obtain ⟨ready, early⟩ := take?_eq_none none
  intro u mem due
  rw [queued, ready, List.nil_append] at mem
  obtain ⟨e, among, rfl⟩ := List.mem_map.mp mem
  have before := h.lt_deadline early e among
  have reached := due e.deadline (h.deadlines e among)
  omega

theorem Sound.served (h : p.Sound) (step : p.step? (.poll worker now) = some q) :
    p.Served worker now q := by
  rw [step?] at step
  split at step
  next idle =>
    cases step
    rw [poll]
    split
    next t left taken =>
      have within : worker < p.hands.length := (List.getElem?_eq_some_iff.mp idle).1
      have busy : (p.take worker now t left).hands[worker]? = some (.busy t) := by
        simp [Pool.take, within]
      have queued : t ∈ p.queued := (queued_of_take? taken).mem_iff.mpr List.mem_cons_self
      have due : t.Due now := (h.take idle taken).dues (now, t) (by simp [Pool.take])
      rcases take?_cases taken with ⟨d, rest, queue, -, rfl, -⟩ | ⟨rest, queue, early, -⟩
      · exact .takes d.work queued due (h.first_delayed queue) busy rfl
      · exact .takes t queued due (h.first_ready queue early) busy rfl
    next none =>
      refine .nothing (h.not_due none) ?_
      split <;> rfl
  next => cases step

/-- In every state that a run of locked sections reaches, no work is lost, taken twice or taken early, the
immediate work is taken in the order of scheduling and the pending work is counted; and whenever an idle
worker polls, at any instant, it takes the work that goes ahead of all others if one may be taken. -/
theorem run_orderly {n : Nat} {sections : List (Section α)} {p : Pool α}
    (run : (ofWorkers n).run? sections = some p) :
    p.Conserved ∧ ∀ worker now q, p.step? (.poll worker now) = some q → p.Served worker now q :=
  have h := sound_of_run run
  ⟨h.conserved, fun _ _ _ ↦ h.served⟩

/-- Two workers take the due works ahead of the immediate ones, the first of two equal deadlines first; one
of them panics, and the next immediate work is taken. -/
theorem run_orderly_past_panic :
    ∃ p q, (ofWorkers 2 : Pool String).run? [.schedule "a", .delay 5 "b", .delay 5 "c", .delay 9 "d",
        .poll 1 6, .schedule "e", .poll 0 6, .finish 1 (.panicked "lost")] = some p ∧
      p.taken.map (fun e ↦ e.2.work) = ["b", "c"] ∧ p.scheduler.pending = 4 ∧
      p.step? (.poll 1 7) = some q ∧ q.taken.map (fun e ↦ e.2.work) = ["b", "c", "a"] ∧
      p.Conserved ∧ p.Served 1 7 q := by
  have run : (ofWorkers 2 : Pool String).run? [.schedule "a", .delay 5 "b", .delay 5 "c", .delay 9 "d",
      .poll 1 6, .schedule "e", .poll 0 6, .finish 1 (.panicked "lost")] = some _ := rfl
  obtain ⟨conserved, served⟩ := run_orderly run
  exact ⟨_, _, run, rfl, rfl, rfl, rfl, conserved, served 1 7 _ rfl⟩

end Pool

end Scheduler

end Troupe
