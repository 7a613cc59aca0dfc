import Troupe.Proofs.Actor.Simulation
import Troupe.Proofs.Actor.Typed

/-!
# Performances are serializable

However the threads of a pool take turns, an actor with typed operations comes to what its messages come
to one at a time, in the order in which they were sent (`serializable`).
-/

namespace Troupe

open Dispatch (Traffic)

variable {μ σ κ : Type}

namespace Performance

/-- What is known of the promises, in the order in which they were made. -/
def outcomes (p : Performance μ σ κ) : List (Option Settled) :=
  (List.range p.promises.size).map fun j ↦ p.result? ⟨j⟩

namespace Follows

variable {table : Entries (Operation μ σ)} {start : σ × μ} {cues : List Cue}
variable {t : Traffic (Call μ σ)} {p : Performance μ σ κ}

/-- Once no call is at work none waits. -/
theorem queue_of_done (h : Follows table start cues t p) (sound : t.Sound) (done : p.turns = []) :
    t.dispatch.queue = [] := by
  apply sound.queue_eq_nil
  rw [h.unfinished, done, List.map_nil]

/-- Once no call is at work every message was answered as in the serial run. -/
theorem result?_of_done (h : Follows table start cues t p) (sound : t.Sound) (done : p.turns = [])
    {j : Nat} {r : Settled} (answer : (serial table cues start).1[j]? = some r) :
    p.result? ⟨j⟩ = some r := by
  rw [getElem?_serial] at answer
  obtain ⟨cue, sent, rfl⟩ := Option.map_eq_some_iff.mp answer
  cases known : cue.job? table ⟨j⟩ with
  | none =>
    have unknown := Cue.job?_eq_none_iff.mp known
    rw [Cue.play_of_unknown unknown, h.unknown j cue sent unknown]
  | some job =>
    have reply : job.work.reply = ⟨j⟩ := Cue.reply_of_job known
    have finished : job ∈ t.finished := by
      simpa [done, h.queue_of_done sound done] using h.mem_jobs_iff.mp (mem_jobs_of_getElem? sent known)
    rw [Cue.play_of_job known, ← reply, h.finished job finished, duty, due, reply]

/-- Once no call is at work the promises know what the serial run comes to. -/
theorem outcomes_of_done (h : Follows table start cues t p) (sound : t.Sound) (done : p.turns = []) :
    p.outcomes = (serial table cues start).1.map some := by
  have length : p.outcomes.length = ((serial table cues start).1.map some).length := by
    simp [outcomes, h.size]
  refine List.ext_getElem length fun j within within' ↦ ?_
  rw [List.getElem_map]
  refine (by simp [outcomes] : p.outcomes[j] = p.result? ⟨j⟩).trans (h.result?_of_done sound done ?_)
  exact List.getElem?_eq_getElem _

/-- Once no call is at work state and memory are those that the serial run leaves. -/
theorem now_of_done (h : Follows table start cues t p) (sound : t.Sound) (done : p.turns = []) :
    p.now = (serial table cues start).2 := by
  have all : t.admitted = jobs table cues := by
    rw [← h.submitted, h.balanced.order, h.queue_of_done sound done, List.append_nil]
  rw [serial_snd, ← all]
  exact h.effects (by simp [Idle, done])

end Follows

/-- A performance of an actor with typed operations goes with the serial run. -/
theorem follows_of_run {table : List (String × Typed μ σ)} {s : σ} {m : μ} {workers : Nat}
    {events : List (Event κ)} {p : Performance μ σ κ}
    (run : (ofActor (Typed.actor table s) m).run? workers events = some p) :
    ∃ t : Traffic (Call μ σ), t.Sound ∧
      Follows (Typed.operations table) (s, m) (cues events) t p := by
  have quiet (name : String) (o : Operation μ σ)
      (found : Entries.find? name (Typed.operations table) = some o) : o.Quiet := by
    rw [Typed.find?_operations] at found
    obtain ⟨typed, -, rfl⟩ := Option.map_eq_some_iff.mp found
    exact typed.quiet_operation
  exact (follows_ofActor (Typed.actor table s) m rfl).run quiet Traffic.sound_empty run

/-- Let any messages be sent to an actor with typed operations on any state, at any instants, with any
number of workers, and let the threads take turns in any order.

* At every instant, a reader that was admitted and is not finished would see state and memory as the
  messages sent before it leave them when they run one at a time.
* At every instant, the promise of a message to an unknown operation has the error that says so.
* Whenever no call is at work, state and memory are what all messages leave when they run one at a time,
  the promises have the outcomes that they come to, and every promise was settled once and took it.
* Then a message that is refused, because its operation is unknown or its arguments do not unpack, has the
  error that says so, and the others come to what they come to without it.
* If there is a worker, it takes no further message to come to such an instant. -/
theorem serializable {table : List (String × Typed μ σ)} {s : σ} {m : μ} {workers : Nat}
    {events : List (Event κ)} {p : Performance μ σ κ}
    (run : (ofActor (Typed.actor table s) m).run? workers events = some p) :
    (∀ turn ∈ p.turns, turn.job.access = .reader → p.now =
      (serial (Typed.operations table) ((cues events).take turn.reply.index) (s, m)).2) ∧
    (∀ j cue, (cues events)[j]? = some cue →
      Entries.find? cue.name (Typed.operations table) = none →
      p.result? ⟨j⟩ = some (.error (DispatchError.unknownOperation cue.name).message)) ∧
    (p.turns = [] →
      p.now = (serial (Typed.operations table) (cues events) (s, m)).2 ∧
      p.outcomes = (serial (Typed.operations table) (cues events) (s, m)).1.map some ∧
      ∀ r : PromiseRef, r.index < (cues events).length →
        p.settlements.filter (fun e ↦ e.1 = r) = [(r, true)]) ∧
    (p.turns = [] →
      (∀ j cue message, (cues events)[j]? = some cue → cue.refusal? table = some message →
        p.result? ⟨j⟩ = some (.error message)) ∧
      p.now = (serial (Typed.operations table) (heard table (cues events)) (s, m)).2 ∧
      (((cues events).zip p.outcomes).filter fun e ↦ (e.1.refusal? table).isNone).map Prod.snd =
        (serial (Typed.operations table) (heard table (cues events)) (s, m)).1.map some) ∧
    (0 < workers → ∃ rest p', p.run? workers rest = some p' ∧ cues rest = [] ∧ p'.turns = []) := by
  obtain ⟨t, sound, h⟩ := follows_of_run run
  refine ⟨fun turn working reads ↦ h.view turn working (.inl reads), h.unknown, ?_, ?_,
    fun free ↦ exists_run_done free p⟩
  · intro done
    refine ⟨h.now_of_done sound done, h.outcomes_of_done sound done, fun r sent ↦ ?_⟩
    obtain ⟨answer, known⟩ : ∃ x, (serial (Typed.operations table) (cues events) (s, m)).1[r.index]? =
        some x := ⟨_, List.getElem?_eq_getElem (by simpa using sent)⟩
    rw [h.noted r, h.result?_of_done sound done known]
    rfl
  · intro done
    refine ⟨fun j cue message sent refused ↦ ?_, ?_, ?_⟩
    · refine h.result?_of_done sound done ?_
      rw [getElem?_serial, sent, Option.map_some, Cue.play_of_refusal refused]
    · rw [serial_heard, h.now_of_done sound done]
    · rw [serial_heard, h.outcomes_of_done sound done, List.zip_map_right, List.filter_map,
        List.map_map, List.map_map]
      rfl

/-- A tally that can be looked at and added to, and panics when it would go below zero. -/
def tally : List (String × Typed Unit Int) :=
  [("add", .writer (.tuple [.int64]) fun (x, _) n m ↦
      if n + x.toInt < 0 then (.panicked "below zero", n, m) else (.value (.int x), n + x.toInt, m)),
    ("get", .reader (.tuple []) fun _ n _ ↦ .value (.ofNat n.toNat))]

/-- Two readers overtake each other, and others send what is refused or panics. -/
def overtaking : List (Event Unit) :=
  [.send ⟨"add", [.int 4]⟩, .send ⟨"get", []⟩, .send ⟨"get", []⟩, .send ⟨"sub", [.int 1]⟩,
    .send ⟨"add", []⟩, .send ⟨"add", [.int (-9)]⟩,
    .handOver 0, .start 0, .look 0, .settle 0, .finish 0,
    .handOver 1, .handOver 0, .start 1, .start 0, .look 1, .settle 1, .finish 1,
    .observe ⟨1⟩ (), .look 0, .settle 0, .finish 0,
    .handOver 0, .start 0, .look 0, .settle 0, .finish 0,
    .handOver 0, .start 0, .look 0, .settle 0, .finish 0]

/-- Both readers see the same, and a panic, an unknown operation and a missing argument leave no trace but
their errors. -/
theorem serializable_overtaking :
    ∃ p : Performance Unit Int Unit,
      (ofActor (Typed.actor tally 3) ()).run? 2 overtaking = some p ∧ p.turns = [] ∧
      p.now = (7, ()) ∧
      p.outcomes = [some (.ok (.int 4)), some (.ok (.int 7)), some (.ok (.int 7)),
        some (.error "no such actor method sub"),
        some (.error "expected 1 arguments but 0 were given"),
        some (.error "function panicked: below zero")] ∧
      p.settlements.filter (fun e ↦ e.1 = ⟨2⟩) = [(⟨2⟩, true)] := by
  have run : (ofActor (Typed.actor tally 3) () : Performance Unit Int Unit).run? 2 overtaking =
      some _ := rfl
  obtain ⟨-, -, done, -, -⟩ := serializable run
  obtain ⟨now, outcomes, once⟩ := done rfl
  exact ⟨_, run, rfl, now, outcomes, once ⟨2⟩ (by decide)⟩

end Performance

end Troupe
