import Mathlib.Data.List.Induction
import Mathlib.Data.List.Nodup
import Troupe.Proofs.Actor.Performance

/-!
# Serial runs

Messages to an actor one at a time, in the order in which they were sent: each runs to its end before the
next begins, and there are no workers, no queue and no promises.  This is what a performance is compared
with.

The messages of known operations are also followed as the jobs that they become (`jobs`), because jobs are
what a dispatch queue keeps in order; `serial_snd` and `serial_take_of_split` say that running the jobs
comes to the same as running the messages.
-/

namespace Troupe

variable {μ σ : Type}

/-- An operation that looks at the state changes nothing. -/
def Operation.Quiet (o : Operation μ σ) : Prop :=
  o.access = .reader → ∀ arguments s m, (o.run arguments s m).2 = (s, m)

/-- What a message comes to when it runs alone, and state and memory after it. -/
def Cue.play (operations : Entries (Operation μ σ)) (cue : Cue) (now : σ × μ) : Settled × (σ × μ) :=
  match Entries.find? cue.name operations with
  | none => (.error (DispatchError.unknownOperation cue.name).message, now)
  | some o =>
    let (reply, after) := o.run cue.arguments now.1 now.2
    ((reply.caught .function).settled, after)

/-- What messages come to when they run one at a time, and state and memory after all of them. -/
def serial (operations : Entries (Operation μ σ)) : List Cue → σ × μ → List Settled × (σ × μ)
  | [], now => ([], now)
  | cue :: rest, now =>
    let (r, now) := cue.play operations now
    let (rs, now) := serial operations rest now
    (r :: rs, now)

section Serial

variable (operations : Entries (Operation μ σ))

theorem serial_concat (cues : List Cue) (cue : Cue) (now : σ × μ) :
    serial operations (cues ++ [cue]) now =
      ((serial operations cues now).1 ++ [(cue.play operations (serial operations cues now).2).1],
        (cue.play operations (serial operations cues now).2).2) := by
  induction cues generalizing now with
  | nil => rfl
  | cons first rest ih => simp only [List.cons_append, serial, ih]

/-- The outcome of a message is that of running it after those before it. -/
theorem getElem?_serial (cues : List Cue) (j : Nat) (now : σ × μ) :
    (serial operations cues now).1[j]? =
      cues[j]?.map fun cue ↦ (cue.play operations (serial operations (cues.take j) now).2).1 := by
  induction cues generalizing j now with
  | nil => rfl
  | cons first rest ih =>
    cases j with
    | zero => rfl
    | succ j => simpa only [serial, List.getElem?_cons_succ, List.take_succ_cons] using ih j _

@[simp] theorem length_serial (cues : List Cue) (now : σ × μ) :
    (serial operations cues now).1.length = cues.length := by
  induction cues generalizing now with
  | nil => rfl
  | cons first rest ih => simp only [serial, List.length_cons, ih]

end Serial

/-! ## Messages as jobs -/

/-- The job that a message becomes, if its operation is known. -/
def Cue.job? (operations : Entries (Operation μ σ)) (cue : Cue) (reply : PromiseRef) :
    Option (Job (Call μ σ)) :=
  (Entries.find? cue.name operations).map fun o ↦ ⟨o.access, o, cue.arguments, reply⟩

/-- The jobs that messages become, each with the promise that was made for its message. -/
def jobs (operations : Entries (Operation μ σ)) (cues : List Cue) : List (Job (Call μ σ)) :=
  cues.zipIdx.filterMap fun e ↦ e.1.job? operations ⟨e.2⟩

/-- State and memory after a call. -/
def Call.effect (call : Call μ σ) (now : σ × μ) : σ × μ :=
  (call.operation.run call.arguments now.1 now.2).2

/-- What a call comes to. -/
def Call.result (call : Call μ σ) (now : σ × μ) : Settled :=
  ((call.operation.run call.arguments now.1 now.2).1.caught .function).settled

/-- State and memory after jobs that run one at a time. -/
def runJobs (jobs : List (Job (Call μ σ))) (now : σ × μ) : σ × μ :=
  jobs.foldl (fun now job ↦ job.work.effect now) now

@[simp] theorem runJobs_append (first second : List (Job (Call μ σ))) (now : σ × μ) :
    runJobs (first ++ second) now = runJobs second (runJobs first now) :=
  List.foldl_append

@[simp] theorem runJobs_singleton (job : Job (Call μ σ)) (now : σ × μ) :
    runJobs [job] now = job.work.effect now := rfl

section Jobs

variable {operations : Entries (Operation μ σ)}

/-- A message of a known operation runs as its job. -/
theorem Cue.play_of_job {cue : Cue} {reply : PromiseRef} {job : Job (Call μ σ)}
    (known : cue.job? operations reply = some job) (now : σ × μ) :
    cue.play operations now = (job.work.result now, job.work.effect now) := by
  obtain ⟨o, found, rfl⟩ := Option.map_eq_some_iff.mp known
  rw [play, found]
  rfl

/-- A message of an unknown operation changes nothing. -/
theorem Cue.play_of_unknown {cue : Cue} (unknown : Entries.find? cue.name operations = none)
    (now : σ × μ) : cue.play operations now =
      (.error (DispatchError.unknownOperation cue.name).message, now) := by
  rw [play, unknown]

theorem Cue.job?_eq_none_iff {cue : Cue} {reply : PromiseRef} :
    cue.job? operations reply = none ↔ Entries.find? cue.name operations = none :=
  Option.map_eq_none_iff

/-- The job of a message settles the promise of the message. -/
theorem Cue.reply_of_job {cue : Cue} {reply : PromiseRef} {job : Job (Call μ σ)}
    (known : cue.job? operations reply = some job) : job.work.reply = reply := by
  obtain ⟨o, -, rfl⟩ := Option.map_eq_some_iff.mp known
  rfl

/-- What is at a place of a list with one more element was there before, or is that element. -/
theorem getElem?_concat_cases {α : Type} {l : List α} {j : Nat} {x last : α}
    (found : (l ++ [last])[j]? = some x) : l[j]? = some x ∨ j = l.length ∧ x = last := by
  obtain ⟨within, same⟩ := List.getElem?_eq_some_iff.mp found
  rw [List.length_append, List.length_singleton] at within
  rcases Nat.lt_succ_iff_lt_or_eq.mp within with before | rfl
  · rw [List.getElem?_append_left before] at found
    exact .inl found
  · exact .inr ⟨rfl, by simpa using same.symm⟩

theorem jobs_concat (cues : List Cue) (cue : Cue) :
    jobs operations (cues ++ [cue]) =
      jobs operations cues ++ (cue.job? operations ⟨cues.length⟩).toList := by
  rw [jobs, List.zipIdx_append, List.filterMap_append]
  cases known : cue.job? operations ⟨cues.length⟩ <;> simp [jobs, known]

/-- A job comes from the message whose promise it settles. -/
theorem mem_jobs {cues : List Cue} {job : Job (Call μ σ)} (sent : job ∈ jobs operations cues) :
    ∃ cue, cues[job.work.reply.index]? = some cue ∧
      cue.job? operations job.work.reply = some job := by
  obtain ⟨⟨cue, j⟩, placed, known⟩ := List.mem_filterMap.mp sent
  have reply : job.work.reply = ⟨j⟩ := Cue.reply_of_job known
  rw [reply]
  exact ⟨cue, List.mem_zipIdx_iff_getElem?.mp placed, known⟩

/-- The message at a place has its job among all. -/
theorem mem_jobs_of_getElem? {cues : List Cue} {j : Nat} {cue : Cue} {job : Job (Call μ σ)}
    (sent : cues[j]? = some cue) (known : cue.job? operations ⟨j⟩ = some job) :
    job ∈ jobs operations cues :=
  List.mem_filterMap.mpr ⟨(cue, j), List.mem_zipIdx_iff_getElem?.mpr sent, known⟩

theorem index_lt_of_mem_jobs {cues : List Cue} {job : Job (Call μ σ)}
    (sent : job ∈ jobs operations cues) : job.work.reply.index < cues.length := by
  obtain ⟨cue, placed, -⟩ := mem_jobs sent
  exact (List.getElem?_eq_some_iff.mp placed).1

/-- No two jobs settle the same promise. -/
theorem nodup_replies (cues : List Cue) :
    ((jobs operations cues).map fun job ↦ job.work.reply).Nodup := by
  induction cues using List.reverseRecOn with
  | nil => exact .nil
  | append_singleton cues cue ih =>
    rw [jobs_concat, List.map_append]
    cases known : cue.job? operations ⟨cues.length⟩ with
    | none => simpa using ih
    | some job =>
      rw [Option.toList_some, List.map_singleton, Cue.reply_of_job known]
      refine List.nodup_append.mpr ⟨ih, List.nodup_singleton _, ?_⟩
      intro old sent new latest same
      rw [List.mem_singleton] at latest
      obtain ⟨job', was, rfl⟩ := List.mem_map.mp sent
      have before := index_lt_of_mem_jobs was
      rw [same, latest] at before
      exact absurd before (Nat.lt_irrefl _)

/-- Messages leave state and memory as their jobs do. -/
theorem serial_snd (cues : List Cue) (now : σ × μ) :
    (serial operations cues now).2 = runJobs (jobs operations cues) now := by
  induction cues using List.reverseRecOn with
  | nil => rfl
  | append_singleton cues cue ih =>
    rw [serial_concat, jobs_concat, runJobs_append, ih]
    cases known : cue.job? operations ⟨cues.length⟩ with
    | none => rw [Cue.play_of_unknown (Cue.job?_eq_none_iff.mp known)]; rfl
    | some job => rw [Cue.play_of_job known]; rfl

/-- The messages sent before that of a job leave state and memory as the jobs before it do. -/
theorem serial_take_of_split {cues : List Cue} {before after : List (Job (Call μ σ))}
    {job : Job (Call μ σ)} (split : jobs operations cues = before ++ job :: after) (now : σ × μ) :
    (serial operations (cues.take job.work.reply.index) now).2 = runJobs before now := by
  induction cues using List.reverseRecOn generalizing after with
  | nil => simp [jobs] at split
  | append_singleton cues cue ih =>
    have earlier {rest : List (Job (Call μ σ))}
        (split : jobs operations cues = before ++ job :: rest) :
        (serial operations ((cues ++ [cue]).take job.work.reply.index) now).2 = runJobs before now := by
      have sent : job ∈ jobs operations cues := by simp [split]
      have placed := index_lt_of_mem_jobs sent
      rw [List.take_append_of_le_length (Nat.le_of_lt placed)]
      exact ih split
    rw [jobs_concat] at split
    cases known : cue.job? operations ⟨cues.length⟩ with
    | none => exact earlier (by simpa [known] using split)
    | some last =>
      rw [known, Option.toList_some] at split
      rcases List.eq_nil_or_concat after with rfl | ⟨others, final, rfl⟩
      · -- the job is the last one
        obtain ⟨rfl, rfl⟩ := List.concat_inj.mp (by simpa using split)
        rw [Cue.reply_of_job known, List.take_left, serial_snd]
      · have inits : jobs operations cues ++ [last] = (before ++ job :: others) ++ [final] := by
          simpa using split
        exact earlier (List.append_inj_left' inits rfl)

end Jobs

end Troupe
