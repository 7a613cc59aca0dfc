import Mathlib.Data.List.Flatten
import Mathlib.Data.List.Induction
import Troupe.Promise

/-!
# Histories of one promise

A promise is shared by the threads that settle it, let it adopt another promise, or observe it.  Each of
them locks the promise once, and what has to be run because of that is handed over to the scheduler after
the lock is released, one observer after the other, while other threads go on.  So a history of a promise
is a list of deeds: the locked section of a call, or one hand-over by a thread that still has observers in
its hands.  `Ledger.ofDeeds` tells what came of a history.

A promise that adopts itself is free at first and is observed later: two deeds of the same call.

The main statement is `assigned_once`: only the first outcome is taken and it stays, and every observer is
handed over once with it.
-/

namespace Troupe.Promise

variable {κ : Type}

/-- What one thread does to a promise at one instant. -/
inductive Deed (κ : Type) where
  /-- a call that settles the promise locks it -/
  | settle (o : Outcome Value)
  /-- a call that lets the promise adopt another asks whether it is free -/
  | adopt
  /-- a call that observes the promise locks it -/
  | observe (k : κ)
  /-- the thread that made a call hands over the next of its observers -/
  | handOver (call : Nat)

namespace Deed

/-- The deed offers an outcome. -/
def isSettle : Deed κ → Bool
  | .settle _ => true
  | _ => false

/-- The deed is the locked section of a call. -/
def isCall : Deed κ → Bool
  | .handOver _ => false
  | _ => true

/-- The observer that a deed brings. -/
def observer? : Deed κ → Option κ
  | .observe k => some k
  | _ => none

end Deed

/-- What a call answers to its caller. -/
inductive Answer where
  /-- whether the promise took an outcome -/
  | settled (taken : Bool)
  /-- whether the promise was free to adopt another -/
  | adopted (free : Bool)
deriving DecidableEq, Repr

/-- What a deed answers on a promise that is free, or not. -/
def Deed.answer? (free : Bool) : Deed κ → Option Answer
  | .settle _ => some (.settled free)
  | .adopt => some (.adopted free)
  | _ => none

/-- The observers that deeds bring, in order. -/
def observers (deeds : List (Deed κ)) : List κ := deeds.filterMap Deed.observer?

/-- A promise and what came of the deeds so far. -/
structure Ledger (κ : Type) where
  /-- the promise -/
  promise : Promise κ
  /-- the answers of the calls, the oldest first -/
  answers : List Answer
  /-- what every call has in its hands: observers to hand over, with the result they are to run with -/
  hands : List (List (κ × Settled))
  /-- what was handed over to the scheduler, the oldest first -/
  scheduled : List (κ × Settled)

namespace Ledger

/-- A new promise. -/
def fresh : Ledger κ := ⟨.fresh, [], [], []⟩

/-- What comes of one deed. -/
def step (l : Ledger κ) : Deed κ → Ledger κ
  | .settle o =>
    let (observers, taken, promise) := l.promise.settle o.settled
    { l with
      promise
      answers := l.answers ++ [.settled taken]
      hands := l.hands ++ [observers.map (·, o.settled)] }
  | .adopt =>
    { l with
      answers := l.answers ++ [.adopted !l.promise.isSettled]
      hands := l.hands ++ [[]] }
  | .observe k =>
    let (result, promise) := l.promise.observe k
    { l with promise, hands := l.hands ++ [result.toList.map (k, ·)] }
  | .handOver call =>
    match l.hands[call]? with
    | some (next :: rest) =>
      { l with hands := l.hands.set call rest, scheduled := l.scheduled ++ [next] }
    | _ => l

/-- What comes of a history. -/
def ofDeeds (deeds : List (Deed κ)) : Ledger κ := deeds.foldl step fresh

@[simp] theorem ofDeeds_concat (deeds : List (Deed κ)) (d : Deed κ) :
    ofDeeds (deeds ++ [d]) = (ofDeeds deeds).step d := by
  simp [ofDeeds]

/-! ## Handing over -/

/-- The next of a list among lists, and all that is left. -/
theorem flatten_perm_of_getElem? {α : Type} {lists : List (List α)} {place : Nat} {next : α}
    {rest : List α} (found : lists[place]? = some (next :: rest)) :
    lists.flatten.Perm (next :: (lists.set place rest).flatten) := by
  induction lists generalizing place with
  | nil => simp at found
  | cons first others ih =>
    cases place with
    | zero =>
      obtain rfl : first = next :: rest := by simpa using found
      exact .refl _
    | succ place =>
      calc (first :: others).flatten
        _ = first ++ others.flatten := rfl
        _ |>.Perm (first ++ next :: (others.set place rest).flatten) :=
          (ih (by simpa using found)).append_left first
        _ |>.Perm (next :: (first ++ (others.set place rest).flatten)) := List.perm_middle

/-- A hand-over does nothing, or moves the next observer of one call to the scheduler. -/
theorem handOver_cases (l : Ledger κ) (call : Nat) :
    l.step (.handOver call) = l ∨
      ∃ next rest, l.hands[call]? = some (next :: rest) ∧ l.step (.handOver call) =
        { l with hands := l.hands.set call rest, scheduled := l.scheduled ++ [next] } := by
  rw [step]
  split
  next next rest found => exact .inr ⟨next, rest, found, rfl⟩
  next => exact .inl rfl

/-! ## Before the first outcome -/

/-- What came of a history in which no outcome was offered. -/
structure Pending (deeds : List (Deed κ)) (l : Ledger κ) : Prop where
  /-- the promise keeps the observers -/
  promise : l.promise = .pending (observers deeds)
  /-- the promise was free whenever it was asked -/
  answers : l.answers = deeds.filterMap (Deed.answer? true)
  /-- nobody has an observer to hand over -/
  hands : l.hands = List.replicate (deeds.countP Deed.isCall) []
  /-- nothing was handed over -/
  scheduled : l.scheduled = []

theorem Pending.step {deeds : List (Deed κ)} {l : Ledger κ} (h : l.Pending deeds) {d : Deed κ}
    (free : d.isSettle = false) : (l.step d).Pending (deeds ++ [d]) := by
  obtain ⟨promise, answers, hands, scheduled⟩ := l
  obtain ⟨rfl, rfl, rfl, rfl⟩ := h
  cases d with
  | settle o => cases free
  | adopt =>
    constructor <;> simp [Ledger.step, observers, Deed.observer?, Deed.answer?, isSettled, result?,
      Deed.isCall, List.replicate_succ']
  | observe k =>
    constructor <;> simp [Ledger.step, observers, Deed.observer?, Deed.answer?, Promise.observe,
      Deed.isCall, List.replicate_succ']
  | handOver call =>
    rcases handOver_cases (⟨_, _, _, _⟩ : Ledger κ) call with same | ⟨next, rest, found, -⟩
    · rw [same]
      constructor <;> simp [observers, Deed.observer?, Deed.answer?, Deed.isCall]
    · exact absurd (List.eq_of_mem_replicate (List.mem_of_getElem? found)) (by simp)

/-- Without an outcome the promise stays pending. -/
theorem pending_ofDeeds {deeds : List (Deed κ)} (free : ∀ d ∈ deeds, d.isSettle = false) :
    (ofDeeds deeds).Pending deeds := by
  induction deeds using List.reverseRecOn with
  | nil => exact ⟨rfl, rfl, rfl, rfl⟩
  | append_singleton deeds d ih =>
    rw [ofDeeds_concat]
    exact (ih fun e old ↦ free e (by simp [old])).step (free d (by simp))

/-! ## From the first outcome on -/

/-- What came of a history whose first outcome was offered after some deeds and before some others. -/
structure Resolved (before : List (Deed κ)) (o : Outcome Value) (after : List (Deed κ))
    (l : Ledger κ) : Prop where
  /-- the promise keeps the first outcome -/
  promise : l.promise = .settled o.settled
  /-- the promise was free up to that outcome and not after it -/
  answers : l.answers = before.filterMap (Deed.answer? true) ++
    .settled true :: after.filterMap (Deed.answer? false)
  /-- all observers were handed over or are in somebody's hands, each once -/
  delivered : (l.scheduled ++ l.hands.flatten).Perm
    ((observers before ++ observers after).map (·, o.settled))
  /-- the observers from before the outcome go in order through the hands that settled the promise -/
  early : ∃ handed, handed.Sublist l.scheduled ∧
    ∃ held, l.hands[before.countP Deed.isCall]? = some held ∧
      handed ++ held = (observers before).map (·, o.settled)

/-- The first outcome is taken. -/
theorem Pending.settle {before : List (Deed κ)} {l : Ledger κ} (h : l.Pending before)
    (o : Outcome Value) : (l.step (.settle o)).Resolved before o [] := by
  obtain ⟨promise, answers, hands, scheduled⟩ := l
  obtain ⟨rfl, rfl, rfl, rfl⟩ := h
  refine ⟨rfl, rfl, ?_, [], .slnil, _, ?_, rfl⟩
  · simp [Ledger.step, Promise.settle, observers]
  · simp [Ledger.step, Promise.settle]

/-- A call on a settled promise changes only its answers and, for an observer, its hands. -/
theorem step_of_settled {l : Ledger κ} {r : Settled} (settled : l.promise = .settled r) {d : Deed κ}
    (call : d.isCall = true) :
    l.step d = { l with
      answers := l.answers ++ (d.answer? false).toList
      hands := l.hands ++ [d.observer?.toList.map (·, r)] } := by
  obtain ⟨promise, answers, hands, scheduled⟩ := l
  obtain rfl : promise = .settled r := settled
  cases d with
  | handOver call => cases call
  | _ => simp [step, Deed.answer?, Deed.observer?, Promise.settle, Promise.observe, isSettled, result?]

/-- Calls keep what is known of a settled promise. -/
theorem Resolved.call {before after : List (Deed κ)} {o : Outcome Value} {l : Ledger κ}
    (h : l.Resolved before o after) {d : Deed κ} (call : d.isCall = true) :
    (l.step d).Resolved before o (after ++ [d]) := by
  rw [step_of_settled h.promise call]
  refine ⟨h.promise, ?_, ?_, ?_⟩
  · rw [h.answers, List.filterMap_append, List.append_assoc, List.cons_append]
    cases answer : d.answer? false <;> simp [answer]
  · have more : observers (after ++ [d]) = observers after ++ d.observer?.toList := by
      cases brought : d.observer? <;> simp [observers, brought]
    rw [more, List.flatten_append, List.flatten_singleton, ← List.append_assoc, ← List.append_assoc,
      List.map_append]
    exact h.delivered.append_right _
  · obtain ⟨handed, sublist, held, found, all⟩ := h.early
    refine ⟨handed, sublist, held, ?_, all⟩
    rw [List.getElem?_append_left (List.getElem?_eq_some_iff.mp found).1, found]

/-- Hand-overs keep what is known of a settled promise. -/
theorem Resolved.handOver {before after : List (Deed κ)} {o : Outcome Value} {l : Ledger κ}
    (h : l.Resolved before o after) (call : Nat) :
    (l.step (.handOver call)).Resolved before o (after ++ [.handOver call]) := by
  have same : observers (after ++ [Deed.handOver call]) = observers after := by
    simp [observers, Deed.observer?]
  have answers : (after ++ [Deed.handOver call]).filterMap (Deed.answer? false) =
      after.filterMap (Deed.answer? false) := by
    simp [Deed.answer?]
  rcases handOver_cases l call with unchanged | ⟨next, rest, found, moved⟩
  · rw [unchanged]
    exact ⟨h.promise, by rw [answers, h.answers], by rw [same]; exact h.delivered, h.early⟩
  · rw [moved]
    refine ⟨h.promise, by rw [answers, h.answers], ?_, ?_⟩
    · rw [same]
      refine .trans ?_ h.delivered
      rw [List.append_assoc]
      exact (flatten_perm_of_getElem? found).symm.append_left _
    · obtain ⟨handed, sublist, held, own, all⟩ := h.early
      by_cases resolving : call = before.countP Deed.isCall
      · -- the thread that settled the promise hands over the next of the early observers
        subst resolving
        obtain rfl : held = next :: rest := Option.some.inj (own.symm.trans found)
        have within := (List.getElem?_eq_some_iff.mp found).1
        exact ⟨handed ++ [next], sublist.append_right [next], rest,
          by simp [List.getElem?_set_self within], by simpa using all⟩
      · exact ⟨handed, sublist.trans (List.sublist_append_left _ _), held,
          by rw [List.getElem?_set_ne resolving, own], all⟩

/-- Every deed keeps what is known of a settled promise. -/
theorem Resolved.step {before after : List (Deed κ)} {o : Outcome Value} {l : Ledger κ}
    (h : l.Resolved before o after) (d : Deed κ) : (l.step d).Resolved before o (after ++ [d]) := by
  cases d with
  | handOver call => exact h.handOver call
  | _ => exact h.call rfl

/-- From its first outcome on the promise is resolved with it. -/
theorem resolved_ofDeeds {before : List (Deed κ)} (free : ∀ d ∈ before, d.isSettle = false)
    (o : Outcome Value) (after : List (Deed κ)) :
    (ofDeeds (before ++ .settle o :: after)).Resolved before o after := by
  induction after using List.reverseRecOn with
  | nil =>
    rw [ofDeeds_concat]
    exact (pending_ofDeeds free).settle o
  | append_singleton after d ih =>
    rw [← List.cons_append, ← List.append_assoc, ofDeeds_concat]
    exact ih.step d

/-! ## Single assignment -/

/-- Before the first outcome no call is told that its outcome was taken. -/
theorem count_answers_of_free {deeds : List (Deed κ)} (free : ∀ d ∈ deeds, d.isSettle = false) :
    (deeds.filterMap (Deed.answer? true)).count (.settled true) = 0 := by
  rw [List.count_eq_zero, List.mem_filterMap]
  rintro ⟨d, old, answer⟩
  have never := free d old
  cases d <;> simp_all [Deed.answer?, Deed.isSettle]

/-- After the first outcome no call is told that its outcome was taken. -/
theorem count_answers_of_settled (deeds : List (Deed κ)) :
    (deeds.filterMap (Deed.answer? false)).count (.settled true) = 0 := by
  rw [List.count_eq_zero, List.mem_filterMap]
  rintro ⟨d, -, answer⟩
  cases d <;> simp [Deed.answer?] at answer

/-- A history offers no outcome, or there is a first one. -/
theorem free_or_first (deeds : List (Deed κ)) :
    (∀ d ∈ deeds, d.isSettle = false) ∨ ∃ before o after, deeds = before ++ .settle o :: after ∧
      ∀ d ∈ before, d.isSettle = false := by
  induction deeds with
  | nil => exact .inl (by simp)
  | cons d rest ih =>
    cases settle : d.isSettle with
    | true =>
      cases d with
      | settle o => exact .inr ⟨[], o, rest, rfl, by simp⟩
      | _ => cases settle
    | false =>
      rcases ih with free | ⟨before, o, after, rfl, free⟩
      · exact .inl (by simpa [settle] using free)
      · exact .inr ⟨d :: before, o, after, rfl, by simpa [settle] using free⟩

/-- Whatever threads do to one promise, in whatever order: at most one offered outcome is taken, and it is
the first.  Until it is offered the promise is free and nothing is handed over.  From then on the promise
keeps that outcome (null, if it is undefined) and answers every call with false; every observer, from
before or after, is in exactly one pair of hands or was handed over exactly once, with that outcome; and
once no thread has an observer left in its hands all were handed over, those from before in the order of
their registration. -/
theorem assigned_once (deeds : List (Deed κ)) :
    (ofDeeds deeds).answers.count (.settled true) ≤ 1 ∧
    ((∀ d ∈ deeds, d.isSettle = false) →
      (ofDeeds deeds).promise.outcome = .undefined ∧
      (∀ a ∈ (ofDeeds deeds).answers, a = .adopted true) ∧
      (ofDeeds deeds).scheduled ++ (ofDeeds deeds).hands.flatten = []) ∧
    ∀ before o after, deeds = before ++ .settle o :: after → (∀ d ∈ before, d.isSettle = false) →
      (ofDeeds deeds).promise.result? = some o.settled ∧
      (ofDeeds deeds).promise.outcome = o.settle .null ∧
      (ofDeeds deeds).answers = before.filterMap (Deed.answer? true) ++
        .settled true :: after.filterMap (Deed.answer? false) ∧
      ((ofDeeds deeds).scheduled ++ (ofDeeds deeds).hands.flatten).Perm
        ((observers before ++ observers after).map (·, o.settled)) ∧
      ((ofDeeds deeds).hands.flatten = [] →
        (ofDeeds deeds).scheduled.Perm ((observers before ++ observers after).map (·, o.settled)) ∧
        ((observers before).map (·, o.settled)).Sublist (ofDeeds deeds).scheduled) := by
  refine ⟨?_, ?_, ?_⟩
  · rcases free_or_first deeds with free | ⟨before, o, after, rfl, free⟩
    · rw [(pending_ofDeeds free).answers, count_answers_of_free free]
      exact Nat.zero_le 1
    · have taken := count_answers_of_free free
      have later := count_answers_of_settled after
      simp only [(resolved_ofDeeds free o after).answers, List.count_append, List.count_cons_self]
      omega
  · intro free
    have h := pending_ofDeeds free
    refine ⟨by rw [h.promise]; rfl, ?_, by simp [h.scheduled, h.hands]⟩
    intro a answered
    rw [h.answers, List.mem_filterMap] at answered
    obtain ⟨d, old, answer⟩ := answered
    have never := free d old
    cases d <;> simp_all [Deed.answer?, Deed.isSettle]
  · rintro before o after rfl free
    have h := resolved_ofDeeds free o after
    refine ⟨by rw [h.promise]; rfl, ?_, h.answers, h.delivered, ?_⟩
    · rw [h.promise]
      cases o <;> rfl
    · intro done
      have delivered := h.delivered
      rw [done, List.append_nil] at delivered
      obtain ⟨handed, sublist, held, found, all⟩ := h.early
      have empty : held = [] := List.flatten_eq_nil_iff.mp done held (List.mem_of_getElem? found)
      rw [empty, List.append_nil] at all
      exact ⟨delivered, all ▸ sublist⟩

/-- Two outcomes are offered between three observers, and the hand-overs overtake each other. -/
def rivals : List (Deed Nat) :=
  [.observe 1, .adopt, .observe 2, .settle .undefined, .settle (.error "late"), .observe 3, .adopt,
    .handOver 3, .handOver 5, .handOver 3]

/-- The first of two outcomes is handed over to all three observers. -/
theorem assigned_once_rivals :
    (ofDeeds rivals).promise.outcome = .value .null ∧
    (ofDeeds rivals).answers = [.adopted true, .settled true, .settled false, .adopted false] ∧
    (ofDeeds rivals).scheduled = [(1, .ok .null), (3, .ok .null), (2, .ok .null)] ∧
    ([(1, .ok .null), (2, .ok .null)] : List (Nat × Settled)).Sublist (ofDeeds rivals).scheduled := by
  obtain ⟨-, -, resolved⟩ := assigned_once rivals
  obtain ⟨-, outcome, answers, -, delivered⟩ :=
    resolved [.observe 1, .adopt, .observe 2] .undefined _ rfl (by decide)
  exact ⟨outcome, answers, rfl, (delivered rfl).2⟩

end Ledger

end Troupe.Promise
