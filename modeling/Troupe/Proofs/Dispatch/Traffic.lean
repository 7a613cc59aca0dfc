import Mathlib.Data.List.Perm.Basic
import Troupe.Proofs.Dispatch.Admission

/-!
# The traffic of a dispatch queue

A dispatch queue is shared by every thread that sends to its actor and by every worker that runs one of
its jobs.  Each of them touches it only in a locked section, of which there are two sorts: a job is
submitted, or an admitted job is finished.  What an admitted job does between its admission and its end
(it is handed over to its scheduler after the lock is released, waits there, runs, submits further jobs,
returns or panics) is invisible to the queue.  So a run of the queue is a list of such sections, in any
order in which they can follow each other; `Traffic.run?` runs them.

Two statements hold of every run:

* `running_exclusive`: the counters of the queue are exact, and a writer is alone;
* `admitted_in_order`: jobs are admitted in the order of submission, none is lost, and whatever waits,
  waits for a job that has not finished.
-/

namespace Troupe.Dispatch

variable {α : Type}

/-- How an admitted job ended. -/
inductive Ending where
  /-- it returned -/
  | returned
  /-- it panicked with a message -/
  | panicked (message : String)
deriving DecidableEq, Repr

/-- A locked section of a dispatch queue. -/
inductive Section (α : Type) where
  /-- a job is submitted, by a running job or by anybody else -/
  | submit (job : Job α)
  /-- the job at a place among those admitted and unfinished is finished, however it ended -/
  | finish (place : Nat) (ending : Ending)
deriving DecidableEq, Repr

/-- A dispatch queue and the jobs that came to it so far. -/
@[ext]
structure Traffic (α : Type) where
  /-- the queue -/
  dispatch : Dispatch α
  /-- the jobs submitted, the oldest first -/
  submitted : List (Job α)
  /-- the jobs admitted, the oldest first -/
  admitted : List (Job α)
  /-- the jobs admitted and not yet finished -/
  unfinished : List (Job α)
  /-- the jobs finished, the oldest first -/
  finished : List (Job α)
deriving Repr

namespace Traffic

/-- A queue to which no job has come. -/
def empty : Traffic α := ⟨.empty, [], [], [], []⟩

/-- The traffic after a locked section has admitted jobs and left a queue. -/
def leave (t : Traffic α) (left : List (Job α) × Dispatch α) : Traffic α :=
  { t with
    dispatch := left.2
    admitted := t.admitted ++ left.1
    unfinished := t.unfinished ++ left.1 }

/-- A job is put behind those that wait, before admission. -/
def enqueue (t : Traffic α) (job : Job α) : Traffic α :=
  { t with
    dispatch := { t.dispatch with queue := t.dispatch.queue ++ [job] }
    submitted := t.submitted ++ [job] }

/-- The end of the admitted job at a place is recorded, before admission. -/
def release (t : Traffic α) (place : Nat) (job : Job α) : Traffic α :=
  { t with
    dispatch := t.dispatch.release job.access
    unfinished := t.unfinished.eraseIdx place
    finished := t.finished ++ [job] }

/-- A job is submitted. -/
def submit (t : Traffic α) (job : Job α) : Traffic α :=
  (t.enqueue job).leave (t.dispatch.submit job)

/-- The admitted job at a place is finished. -/
def finish (t : Traffic α) (place : Nat) (job : Job α) : Traffic α :=
  (t.release place job).leave (t.dispatch.complete job.access)

/-- Runs one locked section; only an admitted and unfinished job can finish. -/
def step? (t : Traffic α) : Section α → Option (Traffic α)
  | .submit job => some (t.submit job)
  | .finish place _ => t.unfinished[place]?.map (t.finish place)

/-- Runs locked sections one after the other. -/
def run? (t : Traffic α) : List (Section α) → Option (Traffic α)
  | [] => some t
  | s :: rest => (t.step? s).bind fun t ↦ t.run? rest

/-! ## What holds between two sections -/

/-- The queue agrees with the jobs that came to it. -/
structure Balanced (t : Traffic α) : Prop where
  /-- the readers are counted -/
  readers_eq : t.dispatch.readers = t.unfinished.countP Job.isReader
  /-- the writer is marked -/
  writer_eq : t.dispatch.writer.toNat = t.unfinished.countP Job.isWriter
  /-- no reader runs beside a writer -/
  apart : t.dispatch.Apart
  /-- jobs leave the queue in the order in which they came -/
  order : t.submitted = t.admitted ++ t.dispatch.queue
  /-- an admitted job is finished or unfinished -/
  account : t.admitted.Perm (t.finished ++ t.unfinished)

/-- What holds of the traffic whenever the lock is free: it is balanced, and all that may run is
admitted. -/
structure Sound (t : Traffic α) : Prop extends Balanced t where
  /-- the head of the queue has to wait -/
  blocked : t.dispatch.Blocked

theorem sound_empty : (empty : Traffic α).Sound where
  readers_eq := rfl
  writer_eq := rfl
  apart := by simp [empty, Dispatch.empty, Apart]
  order := rfl
  account := .nil
  blocked := by simp [empty, Dispatch.empty, Blocked]

/-- A section that leaves the traffic balanced before its admission leaves it sound after it. -/
theorem Balanced.advance {t : Traffic α} (h : t.Balanced) : (t.leave t.dispatch.advance).Sound where
  readers_eq := by
    simp only [leave, List.countP_append, ← h.readers_eq]
    exact readers_admitFrom _ _ _
  writer_eq := by
    simp only [leave, List.countP_append, ← h.writer_eq]
    exact writer_admitFrom _ _ _
  apart := Apart.admitFrom h.apart
  order := by
    simp only [leave, List.append_assoc, queue_advance]
    exact h.order
  account := by
    simp only [leave, ← List.append_assoc]
    exact h.account.append_right _
  blocked := blocked_admitFrom _ _ _

/-- Submitting keeps the traffic balanced. -/
theorem Balanced.enqueue {t : Traffic α} (h : t.Balanced) (job : Job α) : (t.enqueue job).Balanced :=
  ⟨h.readers_eq, h.writer_eq, h.apart, by simp [Traffic.enqueue, h.order], h.account⟩

/-- Submitting keeps the traffic sound. -/
theorem Sound.submit {t : Traffic α} (h : t.Sound) (job : Job α) : (t.submit job).Sound :=
  (h.toBalanced.enqueue job).advance

/-- An element and the others at the other places are all elements. -/
theorem perm_of_getElem? {β : Type} {l : List β} {place : Nat} {x : β} (found : l[place]? = some x) :
    (x :: l.eraseIdx place).Perm l := by
  obtain ⟨within, rfl⟩ := List.getElem?_eq_some_iff.mp found
  exact List.getElem_cons_eraseIdx_perm within

/-- Recording the end of a job keeps the traffic balanced. -/
theorem Balanced.release {t : Traffic α} (h : t.Balanced) {place : Nat} {job : Job α}
    (found : t.unfinished[place]? = some job) : (t.release place job).Balanced := by
  have perm := perm_of_getElem? found
  have readers := h.readers_eq.trans (perm.countP_eq _).symm
  have writers := h.writer_eq.trans (perm.countP_eq _).symm
  rw [List.countP_cons] at readers writers
  rw [Traffic.release]
  exact {
    readers_eq := by
      cases access : job.access with
      | reader =>
        simp only [Job.isReader_iff, access, if_true] at readers
        simp only [readers_release_reader]
        omega
      | writer => simpa [access] using readers
    writer_eq := by
      cases access : job.access with
      | reader => simpa [access] using writers
      | writer =>
        have one := Bool.toNat_le t.dispatch.writer
        simp only [Job.isWriter_iff, access, if_true] at writers
        simp only [writer_release_writer, Bool.toNat_false]
        omega
    apart := by
      intro busy
      cases access : job.access with
      | reader =>
        have none : t.dispatch.readers = 0 := h.apart (by simpa [access] using busy)
        simp [none]
      | writer => simp [access] at busy
    order := by simpa using h.order
    account :=
      calc t.admitted
        _ |>.Perm (t.finished ++ t.unfinished) := h.account
        _ |>.Perm (t.finished ++ (job :: t.unfinished.eraseIdx place)) := perm.symm.append_left _
        _ = t.finished ++ [job] ++ t.unfinished.eraseIdx place := by simp }

/-- Finishing keeps the traffic sound. -/
theorem Sound.finish {t : Traffic α} (h : t.Sound) {place : Nat} {job : Job α}
    (found : t.unfinished[place]? = some job) : (t.finish place job).Sound :=
  (h.toBalanced.release found).advance

/-- One section keeps the traffic sound. -/
theorem Sound.step {t t' : Traffic α} (h : t.Sound) {s : Section α} (step : t.step? s = some t') :
    t'.Sound := by
  cases s with
  | submit job =>
    cases step
    exact h.submit job
  | finish place ending =>
    obtain ⟨job, found, rfl⟩ := Option.map_eq_some_iff.mp step
    exact h.finish found

/-- Any run keeps the traffic sound. -/
theorem Sound.run {t t' : Traffic α} (h : t.Sound) {sections : List (Section α)}
    (run : t.run? sections = some t') : t'.Sound := by
  induction sections generalizing t with
  | nil =>
    cases run
    exact h
  | cons s rest ih =>
    obtain ⟨next, step, run⟩ := Option.bind_eq_some_iff.mp run
    exact ih (h.step step) run

/-! ## Exclusion -/

/-- The queue knows how many jobs are admitted and unfinished. -/
theorem Balanced.running_eq {t : Traffic α} (h : t.Balanced) :
    t.dispatch.running = t.unfinished.length := by
  have writers : t.unfinished.countP Job.isWriter =
      t.unfinished.countP fun job ↦ decide ¬job.isReader :=
    List.countP_congr fun job _ ↦ by simpa using job.access_eq_writer_iff
  rw [running, h.readers_eq, h.writer_eq, writers, ← List.length_eq_countP_add_countP]

/-- A writer is marked exactly when one is unfinished. -/
theorem Balanced.writer_iff {t : Traffic α} (h : t.Balanced) :
    t.dispatch.writer = true ↔ ∃ job ∈ t.unfinished, job.access = .writer := by
  have marked : t.dispatch.writer = true ↔ 0 < t.dispatch.writer.toNat := by
    cases t.dispatch.writer <;> simp
  rw [marked, h.writer_eq, List.countP_pos_iff]
  simp

/-- Readers are counted exactly when one is unfinished. -/
theorem Balanced.readers_pos_iff {t : Traffic α} (h : t.Balanced) :
    0 < t.dispatch.readers ↔ ∃ job ∈ t.unfinished, job.access = .reader := by
  rw [h.readers_eq, List.countP_pos_iff]
  simp

/-- A writer that has not finished is the only job that has not. -/
theorem Balanced.eq_singleton {t : Traffic α} (h : t.Balanced) {job : Job α}
    (unfinished : job ∈ t.unfinished) (writes : job.access = .writer) : t.unfinished = [job] := by
  have busy : t.dispatch.writer = true := h.writer_iff.mpr ⟨job, unfinished, writes⟩
  have one : t.unfinished.length = 1 := by
    rw [← h.running_eq, running, h.apart busy, busy]
    rfl
  obtain ⟨only, single⟩ := List.length_eq_one_iff.mp one
  rw [single, List.mem_singleton] at unfinished
  rw [single, unfinished]

/-- In every state that a run of locked sections reaches, the counters of the queue are exact: `readers`
is the number of unfinished readers, `writer` says whether one writer is unfinished, and an unfinished
writer is the only unfinished job.  So finishing a reader never counts below zero, and `running` is the
number of all unfinished jobs. -/
theorem running_exclusive {sections : List (Section α)} {t : Traffic α}
    (run : (empty : Traffic α).run? sections = some t) :
    t.dispatch.readers = (t.unfinished.filter fun job ↦ job.access = .reader).length ∧
    (t.dispatch.writer = true ↔
      (t.unfinished.filter fun job ↦ job.access = .writer).length = 1) ∧
    (∀ job ∈ t.unfinished, job.access = .writer → t.unfinished = [job]) ∧
    (∀ job ∈ t.unfinished, job.access = .reader →
      (t.dispatch.release .reader).readers + 1 = t.dispatch.readers) ∧
    t.dispatch.running = t.unfinished.length := by
  have h := (sound_empty.run run).toBalanced
  have writers := h.writer_eq
  refine ⟨?_, ?_, fun job ↦ h.eq_singleton, ?_, h.running_eq⟩
  · rw [h.readers_eq, List.countP_eq_length_filter]
    rfl
  · rw [List.countP_eq_length_filter] at writers
    change _ ↔ (t.unfinished.filter Job.isWriter).length = 1
    rw [← writers]
    cases t.dispatch.writer <;> simp
  · intro job unfinished reads
    have some : 0 < t.dispatch.readers := h.readers_pos_iff.mpr ⟨job, unfinished, reads⟩
    exact Nat.sub_add_cancel some

/-- Two readers run beside each other, one of them panics, and the writer behind them waits for the
other one. -/
theorem running_exclusive_beside_panic :
    ∃ t, (empty : Traffic Nat).run? [.submit ⟨.reader, 1⟩, .submit ⟨.reader, 2⟩, .submit ⟨.writer, 3⟩,
        .submit ⟨.reader, 4⟩, .finish 0 (.panicked "lost")] = some t ∧
      t.unfinished = [⟨.reader, 2⟩] ∧ t.dispatch.readers = 1 ∧ t.dispatch.writer = false ∧
      (t.dispatch.release .reader).readers + 1 = t.dispatch.readers ∧ t.dispatch.running = 1 := by
  have run : (empty : Traffic Nat).run? [.submit ⟨.reader, 1⟩, .submit ⟨.reader, 2⟩,
      .submit ⟨.writer, 3⟩, .submit ⟨.reader, 4⟩, .finish 0 (.panicked "lost")] = some _ := rfl
  obtain ⟨readers, -, -, counted, running⟩ := running_exclusive run
  exact ⟨_, run, rfl, readers, rfl, counted ⟨.reader, 2⟩ (.head _) rfl, running⟩

/-! ## Order -/

/-- The jobs submitted are those finished, those unfinished and those that wait. -/
theorem Balanced.perm_submitted {t : Traffic α} (h : t.Balanced) :
    t.submitted.Perm (t.finished ++ t.unfinished ++ t.dispatch.queue) := by
  rw [h.order]
  exact h.account.append_right _

/-- Whatever waits, waits for an unfinished job. -/
theorem Sound.head_waits {t : Traffic α} (h : t.Sound) {head : Job α} {rest : List (Job α)}
    (queue : t.dispatch.queue = head :: rest) :
    (∃ job ∈ t.unfinished, job.access = .writer) ∨
      head.access = .writer ∧ ∃ job ∈ t.unfinished, job.access = .reader := by
  have blocked := h.blocked head (by simp [queue])
  rwa [h.writer_iff, h.readers_pos_iff] at blocked

/-- When no job is unfinished, no job waits. -/
theorem Sound.queue_eq_nil {t : Traffic α} (h : t.Sound) (idle : t.unfinished = []) :
    t.dispatch.queue = [] := by
  cases queue : t.dispatch.queue with
  | nil => rfl
  | cons head rest =>
    have waits := h.head_waits queue
    simp [idle] at waits

/-- In every state that a run of locked sections reaches, the jobs submitted are the jobs admitted
followed by those that wait, in the same order; whatever waits, waits for an unfinished writer, or it is a
writer itself and waits for an unfinished reader.  So nothing waits while nothing runs, and once no
admitted job is unfinished every job ever submitted has finished. -/
theorem admitted_in_order {sections : List (Section α)} {t : Traffic α}
    (run : (empty : Traffic α).run? sections = some t) :
    t.submitted = t.admitted ++ t.dispatch.queue ∧
    t.submitted.Perm (t.finished ++ t.unfinished ++ t.dispatch.queue) ∧
    (∀ head rest, t.dispatch.queue = head :: rest →
      (∃ job ∈ t.unfinished, job.access = .writer) ∨
        head.access = .writer ∧ ∃ job ∈ t.unfinished, job.access = .reader) ∧
    (t.dispatch.running = 0 → t.dispatch.queued = 0) ∧
    (t.unfinished = [] → t.finished.Perm t.submitted) := by
  have h := sound_empty.run run
  refine ⟨h.order, h.perm_submitted, fun head rest ↦ h.head_waits, ?_, ?_⟩
  · intro idle
    rw [h.running_eq, List.length_eq_zero_iff] at idle
    rw [queued, h.queue_eq_nil idle, List.length_nil]
  · intro idle
    simpa [idle, h.queue_eq_nil idle] using h.perm_submitted.symm

/-- The last reader of a batch lets the waiting writer in, and the reader behind it waits on. -/
theorem admitted_in_order_past_batch :
    ∃ t, (empty : Traffic Nat).run? [.submit ⟨.reader, 1⟩, .submit ⟨.reader, 2⟩, .submit ⟨.writer, 3⟩,
        .submit ⟨.reader, 4⟩, .finish 1 .returned, .finish 0 (.panicked "lost")] = some t ∧
      t.admitted = [⟨.reader, 1⟩, ⟨.reader, 2⟩, ⟨.writer, 3⟩] ∧ t.dispatch.queue = [⟨.reader, 4⟩] ∧
      t.submitted = t.admitted ++ t.dispatch.queue ∧
      ∃ job ∈ t.unfinished, job.access = .writer := by
  have run : (empty : Traffic Nat).run? [.submit ⟨.reader, 1⟩, .submit ⟨.reader, 2⟩,
      .submit ⟨.writer, 3⟩, .submit ⟨.reader, 4⟩, .finish 1 .returned,
      .finish 0 (.panicked "lost")] = some _ := rfl
  obtain ⟨order, -, waits, -, -⟩ := admitted_in_order run
  exact ⟨_, run, rfl, rfl, order, (waits _ _ rfl).resolve_right (by simp)⟩

end Traffic

end Troupe.Dispatch
