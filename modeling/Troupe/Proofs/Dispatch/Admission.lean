import Troupe.Actor.Dispatch

/-!
# Admission

What one pass of admission does to a dispatch queue.  Every locked section of the queue ends with such a
pass, so all that is known of the queue between two sections is stated here, once, about
`Dispatch.admitFrom`:

* the counters grow by exactly the jobs that were admitted (`readers_admitFrom`, `writer_admitFrom`);
* a pass that starts with readers and a writer apart leaves them apart (`Apart.admitFrom`);
* nothing that may still run is left at the head of the queue (`blocked_admitFrom`);
* the jobs of one pass are readers beside no writer, or one writer beside nobody (`batch_admitFrom`).
-/

namespace Troupe

/-- The job looks at the state alongside others. -/
def Job.isReader {α : Type} (job : Job α) : Bool := decide (job.access = .reader)

/-- The job has the state to itself. -/
def Job.isWriter {α : Type} (job : Job α) : Bool := decide (job.access = .writer)

namespace Job

variable {α : Type}

@[simp] theorem isReader_iff (job : Job α) : job.isReader = true ↔ job.access = .reader :=
  decide_eq_true_iff

@[simp] theorem isWriter_iff (job : Job α) : job.isWriter = true ↔ job.access = .writer :=
  decide_eq_true_iff

/-- A job is a reader or a writer. -/
theorem access_eq_writer_iff (job : Job α) : job.access = .writer ↔ job.access ≠ .reader := by
  cases job.access <;> simp

end Job

namespace Dispatch

variable {α : Type}

/-- No reader runs beside a writer. -/
def Apart (d : Dispatch α) : Prop := d.writer = true → d.readers = 0

/-- The job at the head of the queue has to wait: a writer runs, or it is a writer and readers run. -/
def Blocked (d : Dispatch α) : Prop :=
  ∀ job ∈ d.queue.head?, d.writer = true ∨ (job.access = .writer ∧ 0 < d.readers)

/-! ## The end of a job -/

section Release

variable (d : Dispatch α) (access : Access)

@[simp] theorem queue_release : (d.release access).queue = d.queue := by
  cases access <;> rfl

@[simp] theorem readers_release_reader : (d.release .reader).readers = d.readers - 1 := rfl

@[simp] theorem readers_release_writer : (d.release .writer).readers = d.readers := rfl

@[simp] theorem writer_release_reader : (d.release .reader).writer = d.writer := rfl

@[simp] theorem writer_release_writer : (d.release .writer).writer = false := rfl

end Release

/-! ## One pass of admission -/

/-- Admission counts the readers it admits. -/
theorem readers_admitFrom (queue : List (Job α)) (readers : Nat) (writer : Bool) :
    (admitFrom queue readers writer).2.readers =
      readers + (admitFrom queue readers writer).1.countP Job.isReader := by
  fun_induction admitFrom queue readers writer with
  | case1 => rfl
  | case2 => rfl
  | case3 job rest readers writer idle reader admitted d admission ih =>
    simp only [admission] at ih
    simp only [List.countP_cons, Job.isReader_iff, reader, if_true]
    omega
  | case4 job rest writer idle writes => simp [writes]
  | case5 => rfl

/-- Admission sets the mark of a writer exactly when it admits one. -/
theorem writer_admitFrom (queue : List (Job α)) (readers : Nat) (writer : Bool) :
    (admitFrom queue readers writer).2.writer.toNat =
      writer.toNat + (admitFrom queue readers writer).1.countP Job.isWriter := by
  fun_induction admitFrom queue readers writer with
  | case1 => rfl
  | case2 => rfl
  | case3 job rest readers writer idle reader admitted d admission ih =>
    simp only [admission] at ih
    simpa [reader, idle] using ih
  | case4 job rest writer idle writes => simp [writes, idle]
  | case5 job rest readers writer idle writes some => simp [idle]

/-- What is admitted and what is left is what waited. -/
theorem queue_advance (d : Dispatch α) : d.advance.1 ++ d.advance.2.queue = d.queue :=
  admitFrom_append _ _ _

/-- Admission lets a writer in only when no reader runs, and no reader while a writer runs. -/
theorem Apart.admitFrom {queue : List (Job α)} {readers : Nat} {writer : Bool}
    (apart : writer = true → readers = 0) : (admitFrom queue readers writer).2.Apart := by
  fun_induction Dispatch.admitFrom queue readers writer with
  | case1 => exact apart
  | case2 => exact apart
  | case3 job rest readers writer idle reader admitted d admission ih =>
    simp only [admission] at ih
    exact ih (by simp)
  | case4 => exact fun _ ↦ rfl
  | case5 => simp [Apart]

/-- After admission the head of the queue has to wait. -/
theorem blocked_admitFrom (queue : List (Job α)) (readers : Nat) (writer : Bool) :
    (admitFrom queue readers writer).2.Blocked := by
  fun_induction admitFrom queue readers writer with
  | case1 => simp [Blocked]
  | case2 => exact fun _ _ ↦ .inl rfl
  | case3 job rest readers writer idle reader admitted d admission ih =>
    simpa only [admission] using ih
  | case4 => exact fun _ _ ↦ .inl rfl
  | case5 job rest readers writer idle writes some =>
    rintro head ⟨⟩
    exact .inr ⟨writes, Nat.pos_of_ne_zero some⟩

/-- What one pass of admission may admit. -/
inductive Batch (readers : Nat) (writer : Bool) : List (Job α) → Prop where
  /-- readers, as many as stand at the head of the queue, and none while a writer runs -/
  | readers (batch : List (Job α)) (idle : batch ≠ [] → writer = false)
      (reads : ∀ job ∈ batch, job.access = .reader) : Batch readers writer batch
  /-- one writer, while nothing runs -/
  | writer (job : Job α) (idle : writer = false) (none : readers = 0) (writes : job.access = .writer) :
      Batch readers writer [job]

/-- While a writer runs nothing is admitted. -/
theorem Batch.idle {readers : Nat} {writer : Bool} {batch : List (Job α)} (h : Batch readers writer batch)
    (some : batch ≠ []) : writer = false := by
  cases h with
  | readers _ idle _ => exact idle some
  | writer _ idle _ _ => exact idle

/-- A batch consists of readers, or of one writer. -/
theorem Batch.readers_or_writer {readers : Nat} {writer : Bool} {batch : List (Job α)}
    (h : Batch readers writer batch) :
    (∀ job ∈ batch, job.access = .reader) ∨ ∃ job, batch = [job] ∧ job.access = .writer := by
  cases h with
  | readers _ _ reads => exact .inl reads
  | writer job _ _ writes => exact .inr ⟨job, rfl, writes⟩

/-- In a batch there are only readers before another job. -/
theorem Batch.reads_before {readers : Nat} {writer : Bool} {batch before after : List (Job α)}
    {job : Job α} (h : Batch readers writer batch) (split : batch = before ++ job :: after) :
    ∀ earlier ∈ before, earlier.access = .reader := by
  rcases h.readers_or_writer with reads | ⟨only, single, -⟩
  · exact fun earlier old ↦ reads earlier (by simp [split, old])
  · cases before with
    | nil => simp
    | cons first others => simp [single] at split

/-- A pass admits readers beside no writer, or one writer beside nobody. -/
theorem batch_admitFrom (queue : List (Job α)) (readers : Nat) (writer : Bool) :
    Batch readers writer (admitFrom queue readers writer).1 := by
  fun_induction admitFrom queue readers writer with
  | case1 => exact .readers [] (by simp) (by simp)
  | case2 => exact .readers [] (by simp) (by simp)
  | case3 job rest readers writer idle reader admitted d admission ih =>
    rw [admission] at ih
    have free : writer = false := by simpa using idle
    cases ih with
    | readers batch _ reads =>
      exact .readers _ (fun _ ↦ free) (by simpa [reader] using reads)
    | writer next _ none _ => omega
  | case4 job rest writer idle writes => exact .writer job (by simpa using idle) rfl writes
  | case5 => exact .readers [] (by simp) (by simp)

end Dispatch

end Troupe
