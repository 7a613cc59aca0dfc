import Mathlib.Algebra.BigOperators.Group.List.Basic
import Mathlib.Algebra.GroupWithZero.Nat
import Troupe.Proofs.Dispatch.Traffic
import Troupe.Proofs.Promise.Web

/-!
# Webs come to an end

Whatever promises adopt and whatever chains hang on them, only so many chores are left once nobody makes a
call any more.  Each observer is brought to its promise once, waits once and gets its result once, and the
chores that this leads to are reckoned to it from the start.  So every chore that is done brings the end
nearer (`ahead_lt_of_work`), in a cycle of adoptions too.
-/

namespace Troupe

variable {ι : Type}

/-- The number of chores that giving an observer its result comes to, with all it leads to. -/
def Observer.weight : Observer ι → Nat
  | .adopt _ | .watch _ => 1
  | .step _ _ | .wrap _ _ _ => 2
  | .follow _ _ => 6

namespace Web

/-- The number of chores that a chore comes to, with all it leads to: an observer is brought to its
promise, waits, and gets its result. -/
def Chore.weight : Chore ι → Nat
  | .react k _ => k.weight
  | .settle _ _ => 1
  | .adopt _ _ => 4
  | .observe _ k => k.weight + 2

/-- The number of chores that those who wait for a promise come to. -/
def load (p : Promise (Observer ι)) : Nat := (p.waiting.map (·.weight + 1)).sum

/-- The number of chores until nothing is left to do, at most. -/
def ahead (w : Web ι) : Nat :=
  (w.chores.map Chore.weight).sum + (w.promises.toList.map load).sum

theorem ahead_add (w : Web ι) (chores : List (Chore ι)) :
    (w.add chores).ahead = w.ahead + (chores.map Chore.weight).sum := by
  simp only [ahead, add, List.map_append, List.sum_append]
  omega

theorem ahead_add_settle (w : Web ι) (p : PromiseRef) (o : Outcome Value) :
    (w.add [.settle p o]).ahead = w.ahead + 1 :=
  ahead_add w _

theorem ahead_take {w : Web ι} {place : Nat} {c : Chore ι} (found : w.chores[place]? = some c) :
    w.ahead = (w.take place).ahead + c.weight := by
  have sum : (w.chores.map Chore.weight).sum =
      c.weight + ((w.chores.eraseIdx place).map Chore.weight).sum :=
    ((Dispatch.Traffic.perm_of_getElem? found).map _).symm.sum_nat
  rw [ahead, sum]
  simp only [ahead, take]
  omega

@[simp] theorem ahead_touch (w : Web ι) (p : PromiseRef) : (w.touch p).ahead = w.ahead := by
  simp [ahead, touch, load, Promise.fresh, Promise.waiting]

/-- Putting a promise in place of another exchanges those who wait. -/
theorem ahead_put {w : Web ι} {p : PromiseRef} (made : w.Made p) (after : Promise (Observer ι)) :
    (w.put p after).ahead + load (w.promise p) = w.ahead + load after := by
  have within : p.index < w.promises.toList.length := made
  have now : w.promises.toList[p.index] = w.promise p := by
    rw [promise, Array.getD_eq_getD_getElem?, ← Array.getElem?_toList,
      List.getElem?_eq_getElem within, Option.getD_some]
  have before := ((List.getElem_cons_eraseIdx_perm within).map load).symm.sum_nat
  have later := ((List.set_perm_cons_eraseIdx within after).map load).sum_nat
  simp only [List.map_cons, List.sum_cons, now] at before later
  simp only [ahead, put, Array.toList_setIfInBounds, before, later]
  omega

/-- Settling a promise brings nobody more to do. -/
theorem ahead_settle_le (w : Web ι) (p : PromiseRef) (r : Settled) : (w.settle p r).ahead ≤ w.ahead := by
  -- Who waits is reckoned one more than the chore that comes of the wait.
  have told (observers : List (Observer ι)) :
      ((observers.map (Chore.react · r)).map Chore.weight).sum ≤
        (observers.map (·.weight + 1)).sum := by
    induction observers with
    | nil => simp
    | cons k rest ih =>
      simp only [List.map_cons, List.sum_cons, Chore.weight]
      omega
  by_cases made : w.Made p
  · have exchanged := ahead_put made ((w.promise p).settle r).2.2
    rw [settle, ahead_add]
    cases now : w.promise p with
    | pending observers =>
      have all := told observers
      simp only [now, Promise.settle, load, Promise.waiting, List.map_nil, List.sum_nil] at exchanged ⊢
      omega
    | settled first =>
      simp only [now, Promise.settle, load, Promise.waiting, List.map_nil, List.sum_nil] at exchanged ⊢
      omega
  · have same : (w.settle p r).promises = w.promises := by
      change (w.put p ((w.promise p).settle r).2.2).promises = w.promises
      rw [put_of_not_made w made]
    rw [ahead, ahead, same, chores_settle, waiting_of_not_made w made]
    simp

/-- Bringing an observer to a promise leaves the observer to do. -/
theorem ahead_observe_le (w : Web ι) (p : PromiseRef) (k : Observer ι) :
    (w.observe p k).ahead ≤ w.ahead + k.weight + 1 := by
  cases known : w.result? p with
  | some r =>
    rw [observe_of_some w known, ahead_add]
    simp only [List.map_cons, List.map_nil, List.sum_cons, List.sum_nil, Chore.weight]
    omega
  | none =>
    rw [observe_of_none w known]
    by_cases made : w.Made p
    · have exchanged := ahead_put made (.pending ((w.promise p).waiting ++ [k]))
      have more : load (.pending ((w.promise p).waiting ++ [k])) =
          load (w.promise p) + (k.weight + 1) := by
        rw [load, Promise.waiting, List.map_append, List.sum_append]
        rfl
      omega
    · rw [put_of_not_made w made]
      omega

/-- Going on with what a stage answered comes to less than the stage. -/
theorem ahead_continueWith_lt (w : Web ι) (target : PromiseRef) (v : Value) (c : Continuation ι) :
    (w.continueWith target v c).ahead < w.ahead + 6 := by
  have lead (w : Web ι) (q : PromiseRef) : (w.lead target v q).ahead = w.ahead + 4 := by
    rw [Web.lead, ahead_add]
    exact congrArg (· + 4) (ahead_touch w q)
  cases c with
  | promise q =>
    rw [continueWith, lead]
    omega
  | fresh tell =>
    rw [continueWith, lead]
    exact Nat.add_lt_add_left (by decide : 4 < 6) w.ahead
  | outcome o =>
    rw [continueWith, ahead_add_settle, lead]
    omega
  | message m =>
    rw [continueWith, lead]
    omega
  | panicked message =>
    rw [continueWith, ahead_add_settle]
    exact Nat.add_lt_add_left (by decide : 1 < 6) w.ahead

/-- Giving an observer its result comes to what it was reckoned to. -/
theorem ahead_react_lt (w : Web ι) (k : Observer ι) (r : Settled) :
    (w.react k r).ahead < w.ahead + k.weight := by
  have settles {more : Nat} (enough : 1 < more) (target : PromiseRef) (o : Outcome Value) :
      (w.add [.settle target o]).ahead < w.ahead + more := by
    rw [ahead_add_settle]
    omega
  cases k with
  | adopt target => exact Nat.lt_succ_of_le (ahead_settle_le w target r)
  | step target f => cases r <;> exact settles Nat.one_lt_two target _
  | follow target f =>
    cases r with
    | error e => exact settles (by decide : 1 < 6) target _
    | ok v => exact ahead_continueWith_lt { w with memory := (f v w.memory).2 } target v _
  | wrap target member path => exact settles Nat.one_lt_two target _
  | watch f => exact Nat.lt_succ_self w.ahead

/-- Doing a chore comes to what it was reckoned to. -/
theorem ahead_perform_lt (w : Web ι) (c : Chore ι) : (w.perform c).ahead < w.ahead + c.weight := by
  cases c with
  | react k r => exact ahead_react_lt w k r
  | settle p o => exact Nat.lt_succ_of_le (ahead_settle_le w p o.settled)
  | adopt p other =>
    rw [perform]
    split
    · exact Nat.lt_add_of_pos_right (by decide : 0 < 4)
    · rw [ahead_add]
      exact Nat.add_lt_add_left (by decide : 3 < 4) w.ahead
  | observe p k => exact Nat.lt_succ_of_le (ahead_observe_le w p k)

/-- A chore that is done brings the end nearer. -/
theorem ahead_lt_of_work {w w' : Web ι} {place : Nat} (step : w.step? (.work place) = some w') :
    w'.ahead < w.ahead := by
  obtain ⟨c, found, rfl⟩ := Option.map_eq_some_iff.mp step
  rw [ahead_take found]
  exact ahead_perform_lt _ c

/-- Chores done one after the other are no more than were ahead. -/
theorem length_le_ahead {w w' : Web ι} {places : List Nat}
    (run : w.run? (places.map .work) = some w') : places.length ≤ w.ahead := by
  induction places generalizing w with
  | nil => exact Nat.zero_le _
  | cons place rest ih =>
    obtain ⟨next, step, run⟩ := Option.bind_eq_some_iff.mp run
    exact Nat.succ_le_of_lt (Nat.lt_of_le_of_lt (ih run) (ahead_lt_of_work step))

/-- All chores can be done. -/
theorem exists_run_done (w : Web ι) :
    ∃ (places : List Nat) (w' : Web ι), w.run? (places.map .work) = some w' ∧ w'.chores = [] := by
  induction distance : w.ahead using Nat.strongRecOn generalizing w with
  | ind n ih =>
    cases chores : w.chores with
    | nil => exact ⟨[], w, rfl, chores⟩
    -- Whichever chore is done, the end comes nearer; the first one is.
    | cons c rest =>
      have step : w.step? (.work 0) = some ((w.take 0).perform c) := by simp [step?, chores]
      obtain ⟨places, w', run, done⟩ := ih _ (distance ▸ ahead_lt_of_work step) _ rfl
      exact ⟨0 :: places, w', by simp [run?, step, run], done⟩

end Web

end Troupe
