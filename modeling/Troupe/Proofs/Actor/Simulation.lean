import Troupe.Proofs.Actor.Performance
import Troupe.Proofs.Actor.Serial

/-!
# Performances follow the serial run

A performance goes with a run of its dispatch queue, and with the serial run of the messages sent so far.
`Performance.Follows` says how: the jobs at work are the unfinished jobs of the queue, state and memory are
those that the serial run has when it comes to the jobs that have yet to look, and the promises know what
the serial run comes to.

Two thoughts carry the proof.

* Nothing an admitted reader sees can change before it is finished: the writers before it are finished,
  and those behind it wait.
* An admitted writer is alone, and it was admitted last; so it sees the effects of all jobs before it.

Sending and finishing are each split at their admission, which is proved once (`Follows.advance`).
-/

namespace Troupe

open Dispatch (Traffic Batch)

variable {μ σ κ : Type}

/-! ## Jobs of quiet operations -/

section Quiet

variable {operations : Entries (Operation μ σ)}
variable (quiet : ∀ name o, Entries.find? name operations = some o → o.Quiet)

include quiet

/-- The job of a reader changes nothing. -/
theorem effect_of_reader {cues : List Cue} {job : Job (Call μ σ)} (sent : job ∈ jobs operations cues)
    (reads : job.access = .reader) (now : σ × μ) : job.work.effect now = now := by
  obtain ⟨cue, -, known⟩ := mem_jobs sent
  obtain ⟨o, found, same⟩ := Option.map_eq_some_iff.mp known
  rw [← same] at reads ⊢
  exact quiet cue.name o found reads cue.arguments now.1 now.2

/-- The jobs of readers change nothing. -/
theorem runJobs_of_readers {cues : List Cue} {batch : List (Job (Call μ σ))}
    (sent : ∀ job ∈ batch, job ∈ jobs operations cues) (reads : ∀ job ∈ batch, job.access = .reader)
    (now : σ × μ) : runJobs batch now = now := by
  induction batch with
  | nil => rfl
  | cons job rest ih =>
    calc runJobs (job :: rest) now
      _ = runJobs rest (job.work.effect now) := rfl
      _ = runJobs rest now := by rw [effect_of_reader quiet (sent job (by simp)) (reads job (by simp))]
      _ = now := ih (fun j old ↦ sent j (by simp [old])) (fun j old ↦ reads j (by simp [old]))

end Quiet

/-! ## The invariant -/

section Due

variable (operations : Entries (Operation μ σ)) (start : σ × μ) (cues : List Cue)

/-- State and memory when the serial run comes to a job. -/
def due (job : Job (Call μ σ)) : σ × μ :=
  (serial operations (cues.take job.work.reply.index) start).2

/-- What a job comes to in the serial run. -/
def duty (job : Job (Call μ σ)) : Settled := job.work.result (due operations start cues job)

end Due

section Due

variable {operations : Entries (Operation μ σ)} {start : σ × μ} {cues : List Cue}

/-- A later message leaves what a job has to see. -/
theorem due_concat {job : Job (Call μ σ)} (sent : job ∈ jobs operations cues) (cue : Cue) :
    due operations start (cues ++ [cue]) job = due operations start cues job := by
  rw [due, due, List.take_append_of_le_length (Nat.le_of_lt (index_lt_of_mem_jobs sent))]

/-- A later message leaves what a job comes to. -/
theorem duty_concat {job : Job (Call μ σ)} (sent : job ∈ jobs operations cues) (cue : Cue) :
    duty operations start (cues ++ [cue]) job = duty operations start cues job := by
  rw [duty, duty, due_concat sent]

end Due

/-- What a promise knows while a call has come so far, if the serial run comes to a result. -/
def Progress.Tells (result : Settled) (known : Option Settled) : Progress → Prop
  | .held | .scheduled | .started => known = none
  | .answered o => o.settled = result ∧ known = none
  | .settled => known = some result

namespace Performance

/-- Every writer at work has looked. -/
def Idle (p : Performance μ σ κ) : Prop :=
  ∀ turn ∈ p.turns, turn.job.access = .writer → turn.progress.looked = true

section Invariant

variable (table : Entries (Operation μ σ)) (start : σ × μ) (cues : List Cue)
variable (t : Traffic (Call μ σ)) (p : Performance μ σ κ)

/-- The performance of some messages goes with the traffic of its dispatch queue. -/
structure Synced : Prop where
  /-- the traffic is balanced -/
  balanced : t.Balanced
  /-- the actor has the queue of the traffic -/
  dispatch : p.actor.dispatch = t.dispatch
  /-- the calls at work are the unfinished jobs -/
  unfinished : t.unfinished = p.turns.map Turn.job
  /-- the operations stay -/
  operations : p.actor.operations = table
  /-- each message has a promise -/
  size : p.promises.size = cues.length
  /-- the jobs submitted are those of the messages -/
  submitted : t.submitted = jobs table cues

/-- State and memory are those of the serial run. -/
structure InTime : Prop where
  /-- they hold the effects of all admitted jobs, unless a writer has yet to look -/
  effects : p.Idle → p.now = runJobs t.admitted start
  /-- a writer at work was admitted last -/
  last : ∀ turn ∈ p.turns, turn.job.access = .writer → ∃ before, t.admitted = before ++ [turn.job]
  /-- what a job has to see is there until it has looked, and for a reader until it is finished -/
  view : ∀ turn ∈ p.turns, turn.job.access = .reader ∨ turn.progress.looked = false →
    p.now = due table start cues turn.job

/-- The promises know what the serial run comes to, as far as they can. -/
structure Told : Prop where
  /-- the promise of a call at work knows its result once it is told -/
  working : ∀ turn ∈ p.turns,
    turn.progress.Tells (duty table start cues turn.job) (p.result? turn.reply)
  /-- the promise of a job that waits has no result -/
  waiting : ∀ job ∈ t.dispatch.queue, p.result? job.work.reply = none
  /-- the promise of a finished job has its result -/
  finished : ∀ job ∈ t.finished, p.result? job.work.reply = some (duty table start cues job)
  /-- the promise of a message to an unknown operation has its result -/
  unknown : ∀ j cue, cues[j]? = some cue → Entries.find? cue.name table = none →
    p.result? ⟨j⟩ = some (.error (DispatchError.unknownOperation cue.name).message)
  /-- a promise was settled once if it has a result, and never if it has none -/
  noted : p.Noted

/-- What holds at every instant of a performance. -/
structure Follows : Prop extends Synced table cues t p, InTime table start cues t p,
    Told table start cues t p

end Invariant

variable {table : Entries (Operation μ σ)} {start : σ × μ} {cues : List Cue}
variable {t : Traffic (Call μ σ)} {p : Performance μ σ κ}

/-- At first nothing was sent. -/
theorem follows_ofActor (actor : Actor μ σ) (memory : μ) (new : actor.dispatch = .empty) :
    Follows actor.operations (actor.state, memory) [] .empty
      (ofActor actor memory : Performance μ σ κ) where
  balanced := Traffic.sound_empty.toBalanced
  dispatch := new
  unfinished := rfl
  operations := rfl
  size := rfl
  submitted := rfl
  effects _ := rfl
  last := by simp [ofActor]
  view := by simp [ofActor]
  working := by simp [ofActor]
  waiting := by simp [Traffic.empty, Dispatch.empty]
  finished := by simp [Traffic.empty]
  unknown := by simp
  noted r := by simp [ofActor, result?, promise]

/-! ## Jobs and their promises -/

namespace Synced

/-- A job that was admitted or waits comes from a message. -/
theorem mem_jobs_iff (h : Synced table cues t p) {job : Job (Call μ σ)} :
    job ∈ jobs table cues ↔ job ∈ t.finished ∨ job ∈ p.turns.map Turn.job ∨ job ∈ t.dispatch.queue := by
  rw [← h.submitted, h.balanced.perm_submitted.mem_iff, List.mem_append, List.mem_append,
    h.unfinished, or_assoc]

/-- A call at work comes from a message. -/
theorem turn_mem_jobs (h : Synced table cues t p) {turn : Turn μ σ} (working : turn ∈ p.turns) :
    turn.job ∈ jobs table cues :=
  h.mem_jobs_iff.mpr (.inr (.inl (List.mem_map_of_mem working)))

/-- The turn at a place is an unfinished job. -/
theorem unfinished_of_getElem? (h : Synced table cues t p) {place : Nat} {turn : Turn μ σ}
    (found : p.turns[place]? = some turn) : t.unfinished[place]? = some turn.job := by
  rw [h.unfinished, List.getElem?_map, found]
  rfl

/-- No other job settles the promise of a turn. -/
theorem reply_ne (h : Synced table cues t p) {place : Nat} {turn : Turn μ σ}
    (found : p.turns[place]? = some turn) {job : Job (Call μ σ)}
    (other : job ∈ t.finished ∨ job ∈ (p.turns.eraseIdx place).map Turn.job ∨
      job ∈ t.dispatch.queue) : job.work.reply ≠ turn.reply := by
  have split : (jobs table cues).Perm
      (turn.job :: (t.finished ++ (t.unfinished.eraseIdx place ++ t.dispatch.queue))) :=
    calc jobs table cues
      _ = t.submitted := h.submitted.symm
      _ |>.Perm (t.finished ++ t.unfinished ++ t.dispatch.queue) := h.balanced.perm_submitted
      _ |>.Perm (t.finished ++ (turn.job :: t.unfinished.eraseIdx place) ++ t.dispatch.queue) :=
        ((Traffic.perm_of_getElem? (h.unfinished_of_getElem? found)).symm.append_left _).append_right _
      _ = t.finished ++ turn.job :: (t.unfinished.eraseIdx place ++ t.dispatch.queue) := by simp
      _ |>.Perm _ := List.perm_middle
  have distinct := (split.map fun job ↦ job.work.reply).nodup_iff.mp (nodup_replies cues)
  rw [List.map_cons, List.nodup_cons] at distinct
  intro same
  refine distinct.1 (List.mem_map.mpr ⟨job, ?_, same⟩)
  rwa [List.mem_append, List.mem_append, h.unfinished, List.eraseIdx_map]

/-- The promise of a call at work was made. -/
theorem reply_lt (h : Synced table cues t p) {turn : Turn μ σ} (working : turn ∈ p.turns) :
    turn.reply.index < p.promises.size := by
  rw [h.size]
  exact index_lt_of_mem_jobs (h.turn_mem_jobs working)

/-- A writer at work is the only call at work. -/
theorem turns_eq_singleton (h : Synced table cues t p) {place : Nat} {turn : Turn μ σ}
    (found : p.turns[place]? = some turn) (writes : turn.job.access = .writer) :
    place = 0 ∧ p.turns = [turn] := by
  have alone : p.turns.map Turn.job = [turn.job] := by
    rw [← h.unfinished]
    exact h.balanced.eq_singleton (List.mem_of_getElem? (h.unfinished_of_getElem? found)) writes
  obtain ⟨only, single, -⟩ := List.map_eq_singleton_iff.mp alone
  rw [single, List.getElem?_singleton] at found
  obtain ⟨first, same⟩ := Option.ite_none_right_eq_some.mp found
  exact ⟨first, by rw [single, Option.some.inj same]⟩

/-- What a job has to see are the effects of the jobs submitted before it. -/
theorem due_of_split (h : Synced table cues t p) {before after : List (Job (Call μ σ))}
    {job : Job (Call μ σ)} (split : t.submitted = before ++ job :: after) :
    due table start cues job = runJobs before start :=
  serial_take_of_split (h.submitted.symm.trans split) start

/-! ### Admission -/

/-- A job is admitted only while no writer is at work. -/
theorem no_writer_of_admitted (h : Synced table cues t p) (some : t.dispatch.advance.1 ≠ []) :
    ∀ turn ∈ p.turns, turn.job.access ≠ .writer := by
  intro turn worked writes
  have busy : t.dispatch.writer = true :=
    h.balanced.writer_iff.mpr ⟨turn.job, h.unfinished ▸ List.mem_map_of_mem worked, writes⟩
  have free : t.dispatch.writer = false := (Dispatch.batch_admitFrom _ _ _).idle some
  simp [busy] at free

/-- A job that is admitted comes from a message. -/
theorem admitted_mem_jobs (h : Synced table cues t p) {job : Job (Call μ σ)}
    (admitted : job ∈ t.dispatch.advance.1) : job ∈ jobs table cues :=
  h.mem_jobs_iff.mpr (.inr (.inr (Dispatch.queue_advance t.dispatch ▸ List.mem_append_left _ admitted)))

/-- A job that is admitted has to see the effects of the jobs admitted in earlier passes. -/
theorem due_of_admitted (h : Synced table cues t p)
    (quiet : ∀ name o, Entries.find? name table = some o → o.Quiet) {job : Job (Call μ σ)}
    (admitted : job ∈ t.dispatch.advance.1) :
    due table start cues job = runJobs t.admitted start := by
  obtain ⟨before, after, split⟩ := List.append_of_mem admitted
  have all : t.submitted = (t.admitted ++ before) ++ job :: (after ++ t.dispatch.advance.2.queue) := by
    rw [h.balanced.order, ← Dispatch.queue_advance, split]
    simp
  have sent : ∀ earlier ∈ before, earlier ∈ jobs table cues := fun earlier old ↦
    h.admitted_mem_jobs (by simp [split, old])
  rw [h.due_of_split all, runJobs_append]
  exact runJobs_of_readers quiet sent ((Dispatch.batch_admitFrom _ _ _).reads_before split) _

end Synced

/-! ## Turns that come further -/

/-- Putting a turn of the same job leaves the jobs. -/
theorem map_job_put {place : Nat} {turn : Turn μ σ} (found : p.turns[place]? = some turn)
    (progress : Progress) :
    (p.put place ⟨turn.job, progress⟩).turns.map Turn.job = p.turns.map Turn.job := by
  obtain ⟨within, rfl⟩ := List.getElem?_eq_some_iff.mp found
  rw [put, List.map_set, ← List.getElem_map Turn.job (h := by simpa using within), List.set_getElem_self]

/-- What holds of all turns and of the one that is put, holds of all turns after. -/
theorem forall_put {P : Turn μ σ → Prop} (all : ∀ turn ∈ p.turns, P turn) (place : Nat)
    {new : Turn μ σ} (put : P new) : ∀ turn ∈ (p.put place new).turns, P turn := by
  intro turn working
  rcases List.mem_or_eq_of_mem_set working with old | rfl
  · exact all turn old
  · exact put

/-- The turns are the one at a place and those at the others. -/
theorem mem_turns_iff {place : Nat} {turn other : Turn μ σ} (found : p.turns[place]? = some turn) :
    other ∈ p.turns ↔ other = turn ∨ other ∈ p.turns.eraseIdx place := by
  rw [← List.mem_cons, (Traffic.perm_of_getElem? found).mem_iff]

/-- The turns after one is put are that one and those at the other places. -/
theorem mem_put_iff {place : Nat} {turn new other : Turn μ σ}
    (found : p.turns[place]? = some turn) :
    other ∈ (p.put place new).turns ↔ other = new ∨ other ∈ p.turns.eraseIdx place := by
  have within := (List.getElem?_eq_some_iff.mp found).1
  rw [put, (List.set_perm_cons_eraseIdx within new).mem_iff, List.mem_cons]

/-- Unless a writer looks, it takes no turn to have all writers looked. -/
theorem Idle.of_put {place : Nat} {turn new : Turn μ σ} (found : p.turns[place]? = some turn)
    (idle : (p.put place new).Idle) (same : turn.job.access = new.job.access)
    (kept : new.job.access = .writer → new.progress.looked = turn.progress.looked) : p.Idle := by
  intro other working writes
  rcases (mem_turns_iff found).mp working with rfl | elsewhere
  · rw [same] at writes
    rw [← kept writes]
    exact idle new ((mem_put_iff found).mpr (.inl rfl)) writes
  · exact idle other ((mem_put_iff found).mpr (.inr elsewhere)) writes

namespace Follows

/-- A call that is handed over or taken, and has not looked, leaves all else. -/
theorem move (h : Follows table start cues t p) {place : Nat} {job : Job (Call μ σ)}
    {old new : Progress} (found : p.turns[place]? = some ⟨job, old⟩)
    (same : ∀ result known, old.Tells result known → new.Tells result known)
    (unseen : old.looked = false) (blind : new.looked = false) :
    Follows table start cues t (p.put place ⟨job, new⟩) := by
  have working : ⟨job, old⟩ ∈ p.turns := List.mem_of_getElem? found
  exact { h with
    unfinished := by rw [map_job_put found, h.unfinished]
    effects := fun idle ↦ h.effects (idle.of_put found rfl fun _ ↦ blind.trans unseen.symm)
    last := forall_put h.last place (h.last ⟨job, old⟩ working)
    view := forall_put h.view place fun _ ↦ h.view ⟨job, old⟩ working (.inr unseen)
    working := forall_put h.working place (same _ _ (h.working ⟨job, old⟩ working)) }

/-- A promise that gets an observer leaves all else. -/
theorem observe (h : Follows table start cues t p) (r : PromiseRef) (k : κ) :
    Follows table start cues t (p.observe r k) :=
  { h with
    size := by simpa using h.size
    working := by simpa using h.working
    waiting := by simpa using h.waiting
    finished := by simpa using h.finished
    unknown := by simpa using h.unknown
    noted := by simpa [Noted] using h.noted }

section Look

variable (h : Follows table start cues t p) {place : Nat} {job : Job (Call μ σ)}

include h

/-- State, memory and outcome of a function that looks. -/
theorem look_eq (found : p.turns[place]? = some ⟨job, .started⟩) :
    ∃ o : Outcome Value, o.settled = duty table start cues job ∧
      p.look place job = { p with
        actor := { p.actor with state := (job.work.effect p.now).1 }
        memory := (job.work.effect p.now).2 }.put place ⟨job, .answered o⟩ := by
  have now : p.now = due table start cues job :=
    h.view ⟨job, .started⟩ (List.mem_of_getElem? found) (.inr rfl)
  refine ⟨(job.work.operation.run job.work.arguments p.actor.state p.memory).1.caught .function, ?_, rfl⟩
  rw [duty, ← now]
  rfl

/-- A reader that looks leaves all else. -/
theorem look_reader (quiet : ∀ name o, Entries.find? name table = some o → o.Quiet)
    (found : p.turns[place]? = some ⟨job, .started⟩) (reads : job.access = .reader) :
    Follows table start cues t (p.look place job) := by
  have working : ⟨job, .started⟩ ∈ p.turns := List.mem_of_getElem? found
  obtain ⟨o, answer, look⟩ := h.look_eq found
  rw [look, effect_of_reader quiet (h.turn_mem_jobs working) reads]
  exact { h with
    unfinished := (map_job_put found _).symm ▸ h.unfinished
    effects := fun idle ↦ h.effects (idle.of_put found rfl fun writes ↦ absurd writes (by simp [reads]))
    last := forall_put h.last place (h.last ⟨job, .started⟩ working)
    view := forall_put h.view place fun _ ↦ h.view ⟨job, .started⟩ working (.inr rfl)
    working := forall_put h.working place ⟨answer, h.working ⟨job, .started⟩ working⟩ }

/-- A writer that looks is alone, and leaves the effects of all admitted jobs. -/
theorem look_writer (found : p.turns[place]? = some ⟨job, .started⟩) (writes : job.access = .writer) :
    Follows table start cues t (p.look place job) := by
  have working : ⟨job, .started⟩ ∈ p.turns := List.mem_of_getElem? found
  have now : p.now = due table start cues job := h.view ⟨job, .started⟩ working (.inr rfl)
  obtain ⟨before, last⟩ := h.last ⟨job, .started⟩ working writes
  obtain ⟨rfl, alone⟩ := h.turns_eq_singleton found writes
  obtain ⟨o, answer, look⟩ := h.look_eq found
  have after : job.work.effect p.now = runJobs t.admitted start := by
    have split : t.submitted = before ++ job :: t.dispatch.queue := by
      rw [h.balanced.order, last, List.append_assoc, List.singleton_append]
    rw [now, h.due_of_split split, last, runJobs_append, runJobs_singleton]
  rw [look]
  exact { h with
    unfinished := (map_job_put found _).symm ▸ h.unfinished
    effects := fun _ ↦ after
    last := by simpa [put, alone] using fun _ ↦ ⟨before, last⟩
    view := by simp [put, alone, writes, Progress.looked]
    working := by simpa [put, alone] using ⟨answer, h.working ⟨job, .started⟩ working⟩ }

/-- A call that looks finds what it has to see. -/
theorem look (quiet : ∀ name o, Entries.find? name table = some o → o.Quiet)
    (found : p.turns[place]? = some ⟨job, .started⟩) :
    Follows table start cues t (p.look place job) := by
  cases access : job.access with
  | reader => exact h.look_reader quiet found access
  | writer => exact h.look_writer found access

end Look

/-- The promise of a call that has looked is settled. -/
theorem settle (h : Follows table start cues t p) {place : Nat} {job : Job (Call μ σ)}
    {o : Outcome Value} (found : p.turns[place]? = some ⟨job, .answered o⟩) :
    Follows table start cues t ((p.settle job.work.reply o).put place ⟨job, .settled⟩) := by
  have working : ⟨job, .answered o⟩ ∈ p.turns := List.mem_of_getElem? found
  have made : job.work.reply.index < p.promises.size := h.reply_lt working
  obtain ⟨answer, free⟩ : o.settled = duty table start cues job ∧ p.result? job.work.reply = none :=
    h.working ⟨job, .answered o⟩ working
  have others {job' : Job (Call μ σ)} (other : job' ∈ t.finished ∨
      job' ∈ (p.turns.eraseIdx place).map Turn.job ∨ job' ∈ t.dispatch.queue) :
      (p.settle job.work.reply o).result? job'.work.reply = p.result? job'.work.reply :=
    result?_settle_of_ne p (h.reply_ne found other) o
  exact { h with
    unfinished := (map_job_put found _).symm ▸ h.unfinished
    size := (size_settle p _ o).trans h.size
    effects := fun idle ↦ h.effects (idle.of_put (p := p) found rfl fun _ ↦ rfl)
    last := forall_put h.last place (h.last ⟨job, .answered o⟩ working)
    view := forall_put h.view place (h.view ⟨job, .answered o⟩ working)
    working := by
      intro turn worked
      rcases (mem_put_iff (p := p.settle job.work.reply o) found).mp worked with rfl | elsewhere
      · exact (result?_settle_self p made free o).trans (congrArg some answer)
      · rw [result?_put, Turn.reply, others (.inr (.inl (List.mem_map_of_mem elsewhere)))]
        exact h.working turn (List.mem_of_mem_eraseIdx elsewhere)
    waiting := by
      intro job' waits
      rw [result?_put, others (.inr (.inr waits)), h.waiting job' waits]
    finished := by
      intro job' finished
      rw [result?_put, others (.inl finished), h.finished job' finished]
    unknown := by
      intro j cue sent unknown
      exact result?_settle_of_some p free (h.unknown j cue sent unknown) o
    noted := h.noted.settle made free o }

/-- A call whose promise is settled ends, before admission. -/
theorem release (h : Follows table start cues t p) {place : Nat} {job : Job (Call μ σ)}
    (found : p.turns[place]? = some ⟨job, .settled⟩) :
    Follows table start cues (t.release place job) { p with
      actor := { p.actor with dispatch := p.actor.dispatch.release job.access }
      turns := p.turns.eraseIdx place } := by
  have working : ⟨job, .settled⟩ ∈ p.turns := List.mem_of_getElem? found
  have still {turn : Turn μ σ} (worked : turn ∈ p.turns.eraseIdx place) : turn ∈ p.turns :=
    List.mem_of_mem_eraseIdx worked
  exact { h with
    balanced := h.balanced.release (h.unfinished_of_getElem? found)
    dispatch := congrArg (·.release job.access) h.dispatch
    unfinished := by simp only [Traffic.release, h.unfinished, List.eraseIdx_map]
    effects := by
      intro idle
      refine h.effects fun turn worked writes ↦ ?_
      rcases (mem_turns_iff found).mp worked with rfl | elsewhere
      · rfl
      · exact idle turn elsewhere writes
    last := fun turn worked ↦ h.last turn (still worked)
    view := fun turn worked ↦ h.view turn (still worked)
    working := fun turn worked ↦ h.working turn (still worked)
    waiting := by
      intro job' waits
      exact h.waiting job' (by simpa [Traffic.release] using waits)
    finished := by
      intro job' finished
      rcases List.mem_append.mp finished with before | last
      · exact h.finished job' before
      · rw [List.mem_singleton.mp last]
        exact h.working ⟨job, .settled⟩ working }

/-- A message to a known operation waits, before admission. -/
theorem enqueue (h : Follows table start cues t p) {cue : Cue} {job : Job (Call μ σ)}
    (known : cue.job? table ⟨cues.length⟩ = some job) :
    Follows table start (cues ++ [cue]) (t.enqueue job) { p.newPromise.2 with
      actor := { p.actor with
        dispatch := { p.actor.dispatch with queue := p.actor.dispatch.queue ++ [job] } } } := by
  exact { h with
    balanced := h.balanced.enqueue job
    dispatch := by simp [Traffic.enqueue, h.dispatch]
    size := by simp [newPromise, h.size]
    submitted := by simp [Traffic.enqueue, h.submitted, jobs_concat, known]
    view := by
      intro turn worked unseen
      rw [due_concat (h.turn_mem_jobs worked)]
      exact h.view turn worked unseen
    working := by
      intro turn worked
      rw [duty_concat (h.turn_mem_jobs worked)]
      exact (p.result?_newPromise turn.reply).symm ▸ h.working turn worked
    waiting := by
      intro job' waits
      refine (p.result?_newPromise _).trans ?_
      rcases List.mem_append.mp waits with before | last
      · exact h.waiting job' before
      · rw [List.mem_singleton.mp last, Cue.reply_of_job known]
        exact p.result?_of_size_le (Nat.le_of_eq h.size)
    finished := by
      intro job' finished
      rw [duty_concat (h.mem_jobs_iff.mpr (.inl finished))]
      exact (p.result?_newPromise _).trans (h.finished job' finished)
    unknown := by
      intro j cue' sent unknown
      refine (p.result?_newPromise _).trans ?_
      rcases getElem?_concat_cases sent with before | ⟨-, last⟩
      · exact h.unknown j cue' before unknown
      · rw [← last, Cue.job?, unknown] at known
        cases known
    noted := by
      intro r
      exact (p.result?_newPromise r).symm ▸ h.noted r }

/-- A message to an unknown operation is answered at once. -/
theorem refuse (h : Follows table start cues t p) {cue : Cue}
    (unknown : Entries.find? cue.name table = none) :
    Follows table start (cues ++ [cue]) t (p.newPromise.2.settle p.newPromise.1
      (.error (DispatchError.unknownOperation cue.name).message)) := by
  have made : p.newPromise.1.index < p.newPromise.2.promises.size := by simp [newPromise]
  have free : p.newPromise.2.result? p.newPromise.1 = none :=
    (p.result?_newPromise _).trans (p.result?_of_size_le (Nat.le_refl _))
  have kept (o : Outcome Value) {job : Job (Call μ σ)} (sent : job ∈ jobs table cues) :
      (p.newPromise.2.settle p.newPromise.1 o).result? job.work.reply =
        p.result? job.work.reply := by
    have apart : job.work.reply ≠ p.newPromise.1 := by
      intro same
      have before := index_lt_of_mem_jobs sent
      rw [same, ← h.size] at before
      exact absurd before (Nat.lt_irrefl _)
    rw [result?_settle_of_ne _ apart, result?_newPromise]
  exact { h with
    size := by simp [newPromise, h.size]
    submitted := by simp [jobs_concat, Cue.job?, unknown, h.submitted]
    view := by
      intro turn worked unseen
      rw [due_concat (h.turn_mem_jobs worked)]
      exact h.view turn worked unseen
    working := by
      intro turn worked
      rw [duty_concat (h.turn_mem_jobs worked), Turn.reply, kept _ (h.turn_mem_jobs worked)]
      exact h.working turn worked
    waiting := by
      intro job waits
      rw [kept _ (h.mem_jobs_iff.mpr (.inr (.inr waits))), h.waiting job waits]
    finished := by
      intro job finished
      have sent := h.mem_jobs_iff.mpr (.inl finished)
      rw [duty_concat sent, kept _ sent, h.finished job finished]
    unknown := by
      intro j cue' sent unknown'
      rcases getElem?_concat_cases sent with before | ⟨rfl, rfl⟩
      · refine result?_settle_of_some _ free ?_ _
        exact (p.result?_newPromise _).trans (h.unknown j cue' before unknown')
      · rw [← h.size]
        exact result?_settle_self _ made free _
    noted := by
      refine Noted.settle (fun r ↦ ?_) made free _
      exact (p.result?_newPromise r).symm ▸ h.noted r }

/-- Whatever is admitted finds what it has to see. -/
theorem advance (h : Follows table start cues t p)
    (quiet : ∀ name o, Entries.find? name table = some o → o.Quiet) :
    Follows table start cues (t.leave t.dispatch.advance)
      (p.hold t.dispatch.advance.1 { p.actor with dispatch := t.dispatch.advance.2 }) := by
  have batch : Batch t.dispatch.readers t.dispatch.writer t.dispatch.advance.1 :=
    Dispatch.batch_admitFrom _ _ _
  exact { h with
    balanced := h.balanced.advance.toBalanced
    dispatch := rfl
    unfinished := by simp [Traffic.leave, Performance.hold, h.unfinished, Function.comp_def]
    effects := by
      intro idle
      have before : p.Idle := fun turn worked ↦ idle turn (List.mem_append_left _ worked)
      refine (h.effects before).trans (Eq.trans ?_ (runJobs_append _ _ _).symm)
      rcases batch.readers_or_writer with reads | ⟨job, single, writes⟩
      · exact (runJobs_of_readers quiet (fun job ↦ h.admitted_mem_jobs) reads _).symm
      · -- a writer that was just admitted has yet to look
        have looked := idle ⟨job, .held⟩ (List.mem_append_right _ (by simp [single])) writes
        cases looked
    last := by
      intro turn worked writes
      rcases List.mem_append.mp worked with old | new
      · by_cases none : t.dispatch.advance.1 = []
        · simpa [Traffic.leave, none] using h.last turn old writes
        · exact absurd writes (h.no_writer_of_admitted none turn old)
      · obtain ⟨job, admitted, rfl⟩ := List.mem_map.mp new
        rcases batch.readers_or_writer with reads | ⟨only, single, -⟩
        · exact absurd writes (by simp [reads job admitted])
        · obtain rfl : job = only := by simpa [single] using admitted
          exact ⟨t.admitted, by rw [Traffic.leave, single]⟩
    view := by
      intro turn worked unseen
      rcases List.mem_append.mp worked with old | new
      · exact h.view turn old unseen
      · obtain ⟨job, admitted, rfl⟩ := List.mem_map.mp new
        have none := h.no_writer_of_admitted (List.ne_nil_of_mem admitted)
        rw [h.due_of_admitted quiet admitted]
        exact h.effects fun turn worked writes ↦ absurd writes (none turn worked)
    working := by
      intro turn worked
      rcases List.mem_append.mp worked with old | new
      · exact h.working turn old
      · obtain ⟨job, admitted, rfl⟩ := List.mem_map.mp new
        exact h.waiting job (Dispatch.queue_advance t.dispatch ▸ List.mem_append_left _ admitted)
    waiting := by
      intro job waits
      exact h.waiting job (Dispatch.queue_advance t.dispatch ▸ List.mem_append_right _ waits) }

/-! ### Events -/

variable (quiet : ∀ name o, Entries.find? name table = some o → o.Quiet)

include quiet

/-- A message is sent. -/
theorem send (h : Follows table start cues t p) (sound : t.Sound) (cue : Cue) :
    ∃ t' : Traffic (Call μ σ), t'.Sound ∧ Follows table start (cues ++ [cue]) t' (p.send cue) := by
  cases known : cue.job? table ⟨cues.length⟩ with
  | none =>
    have unknown := Cue.job?_eq_none_iff.mp known
    have refused : p.send cue = p.newPromise.2.settle p.newPromise.1
        (.error (DispatchError.unknownOperation cue.name).message) := by
      simp [Performance.send, Actor.send?, newPromise, h.operations, unknown]
    exact ⟨t, sound, refused ▸ h.refuse unknown⟩
  | some job =>
    have admitted : p.send cue = p.newPromise.2.hold (t.dispatch.submit job).1
        { p.actor with dispatch := (t.dispatch.submit job).2 } := by
      obtain ⟨o, found, rfl⟩ := Option.map_eq_some_iff.mp known
      simp [Performance.send, Actor.send?, newPromise, h.operations, found, h.dispatch, h.size]
    exact ⟨t.submit job, sound.submit job, admitted ▸ (h.enqueue known).advance quiet⟩

/-- A call is reported finished. -/
theorem finish (h : Follows table start cues t p) (sound : t.Sound) {place : Nat}
    {job : Job (Call μ σ)} (found : p.turns[place]? = some ⟨job, .settled⟩) :
    ∃ t' : Traffic (Call μ σ), t'.Sound ∧ Follows table start cues t' (p.finish place job) := by
  have admitted : p.finish place job = { p with turns := p.turns.eraseIdx place }.hold
      (t.dispatch.complete job.access).1
      { p.actor with dispatch := (t.dispatch.complete job.access).2 } := by
    simp [Performance.finish, Actor.complete, h.dispatch]
  exact ⟨t.finish place job, sound.finish (h.unfinished_of_getElem? found),
    admitted ▸ (h.release found).advance quiet⟩

/-- One event keeps the performance with the serial run. -/
theorem step (h : Follows table start cues t p) (sound : t.Sound) {workers : Nat} {e : Event κ}
    {p' : Performance μ σ κ} (step : p.step? workers e = some p') :
    ∃ t' : Traffic (Call μ σ), t'.Sound ∧ Follows table start (cues ++ e.cue?.toList) t' p' := by
  cases step_of_step? step with
  | send cue => exact h.send quiet sound cue
  | observe r k => exact ⟨t, sound, by simpa [Event.cue?] using h.observe r k⟩
  | @handOver place job found =>
    have moved : Follows table start cues t (p.put place ⟨job, .scheduled⟩) :=
      h.move found (fun _ _ ↦ id) rfl rfl
    exact ⟨t, sound, by simpa [Event.cue?] using moved⟩
  | @start place job found =>
    have moved : Follows table start cues t (p.put place ⟨job, .started⟩) :=
      h.move found (fun _ _ ↦ id) rfl rfl
    exact ⟨t, sound, by simpa [Event.cue?] using moved⟩
  | look found => exact ⟨t, sound, by simpa [Event.cue?] using h.look quiet found⟩
  | settle found => exact ⟨t, sound, by simpa [Event.cue?] using h.settle found⟩
  | finish found => simpa [Event.cue?] using h.finish quiet sound found

/-- Any events keep the performance with the serial run. -/
theorem run (h : Follows table start cues t p) (sound : t.Sound) {workers : Nat}
    {events : List (Event κ)} {p' : Performance μ σ κ} (run : p.run? workers events = some p') :
    ∃ t' : Traffic (Call μ σ), t'.Sound ∧
      Follows table start (cues ++ Performance.cues events) t' p' := by
  induction events generalizing cues t p with
  | nil =>
    cases run
    exact ⟨t, sound, by simpa [Performance.cues] using h⟩
  | cons e rest ih =>
    obtain ⟨next, step, run⟩ := Option.bind_eq_some_iff.mp run
    obtain ⟨t', sound', h'⟩ := h.step quiet sound step
    have sent : Performance.cues (e :: rest) = e.cue?.toList ++ Performance.cues rest := by
      cases cue : e.cue? <;> simp [Performance.cues, cue]
    rw [sent, ← List.append_assoc]
    exact ih h' sound' run

end Follows

end Performance

end Troupe
