import Troupe.Proofs.Promise.Web

/-!
# Where a result is on its way

The promise made for a stage of a chain gets its result in one way only: the stage is brought to the promise
that it is attached to, waits there, gets a value, and what it answers is settled or adopted.  At every
instant one chore or one observer that waits is at this, and the others have nothing to do with the promise.
`Only` says so, with a `Token` that tells which one it is, and the lemmas tell where the token goes.
-/

namespace Troupe.Web

variable {ι : Type} {w w' : Web ι} {t : PromiseRef}

/-- The promise that a chore settles, now or later. -/
def Chore.target? : Chore ι → Option PromiseRef
  | .react k _ | .observe _ k => k.target?
  | .settle p _ | .adopt p _ => some p

/-- Chores mention the promise that they settle. -/
theorem Chore.mem_mentions {c : Chore ι} (aims : c.target? = some t) : t ∈ c.mentions := by
  cases c <;> simp_all [Chore.target?, Chore.mentions]

/-- Who is to settle a promise. -/
inductive Token (ι : Type) where
  /-- a chore -/
  | chore (c : Chore ι)
  /-- an observer that waits for another promise -/
  | waiting (p : PromiseRef) (k : Observer ι)
  /-- the chore that is done right now -/
  | held
  /-- nobody: it is settled -/
  | done

namespace Token

/-- The chore that a token is. -/
def chores : Token ι → List (Chore ι)
  | .chore c => [c]
  | _ => []

/-- The observer that a token is, among those that wait for a promise. -/
def waiters (p : PromiseRef) : Token ι → List (Observer ι)
  | .waiting q k => if q = p then [k] else []
  | _ => []

/-- The token after a promise was settled: an observer that waited for it has the result. -/
def told (p : PromiseRef) (r : Settled) : Token ι → Token ι
  | .waiting q k => if q = p then .chore (.react k r) else .waiting q k
  | x => x

theorem chores_told (p : PromiseRef) (r : Settled) (x : Token ι) :
    (x.told p r).chores = x.chores ++ (x.waiters p).map (.react · r) := by
  cases x with
  | waiting q k =>
    rw [told, waiters]
    split <;> rfl
  | _ => simp [told, chores, waiters]

theorem waiters_told_self (p : PromiseRef) (r : Settled) (x : Token ι) :
    (x.told p r).waiters p = [] := by
  cases x with
  | waiting q k =>
    rw [told]
    split
    · rfl
    · rw [waiters, if_neg ‹_›]
  | _ => rfl

theorem waiters_told_of_ne {p q : PromiseRef} (apart : q ≠ p) (r : Settled) (x : Token ι) :
    (x.told p r).waiters q = x.waiters q := by
  cases x with
  | waiting q' k =>
    by_cases same : q' = p
    · rw [told, if_pos same, waiters, if_neg (same ▸ apart.symm)]
      rfl
    · rw [told, if_neg same]
  | _ => rfl

theorem told_eq_done {p : PromiseRef} {r : Settled} {x : Token ι} : x.told p r = done ↔ x = done := by
  cases x with
  | waiting q k =>
    rw [told]
    split <;> simp
  | _ => rfl

end Token

/-- The chores that are to settle a promise. -/
def aiming (t : PromiseRef) (chores : List (Chore ι)) : List (Chore ι) :=
  chores.filter (·.target? = some t)

/-- The observers that are to settle a promise. -/
def aimed (t : PromiseRef) (observers : List (Observer ι)) : List (Observer ι) :=
  observers.filter (·.target? = some t)

@[simp] theorem aiming_append (chores more : List (Chore ι)) :
    aiming t (chores ++ more) = aiming t chores ++ aiming t more :=
  List.filter_append ..

@[simp] theorem aimed_append (observers more : List (Observer ι)) :
    aimed t (observers ++ more) = aimed t observers ++ aimed t more :=
  List.filter_append ..

/-- Chores that settle other promises are none that settle this one. -/
theorem aiming_eq_nil {chores : List (Chore ι)} (apart : ∀ c ∈ chores, c.target? ≠ some t) :
    aiming t chores = [] := by
  simpa [aiming] using apart

theorem aiming_cons_self {c : Chore ι} (aims : c.target? = some t) (chores : List (Chore ι)) :
    aiming t (c :: chores) = c :: aiming t chores := by
  simp [aiming, aims]

theorem aiming_cons_of_ne {c : Chore ι} (apart : c.target? ≠ some t) (chores : List (Chore ι)) :
    aiming t (c :: chores) = aiming t chores := by
  simp [aiming, apart]

theorem aiming_singleton {c : Chore ι} (aims : c.target? = some t) : aiming t [c] = [c] :=
  aiming_cons_self aims []

theorem aimed_singleton {k : Observer ι} (aims : k.target? = some t) : aimed t [k] = [k] := by
  simp [aimed, aims]

theorem aimed_singleton_of_ne {k : Observer ι} (apart : k.target? ≠ some t) : aimed t [k] = [] := by
  simp [aimed, apart]

/-- Observers that get their result settle what they were to settle. -/
theorem aiming_map_react (observers : List (Observer ι)) (r : Settled) :
    aiming t (observers.map (.react · r)) = (aimed t observers).map (.react · r) := by
  rw [aiming, aimed, List.filter_map]
  rfl

/-- Taking a chore out takes it from those to do. -/
theorem exists_split_of_take {place : Nat} {c : Chore ι} (found : w.chores[place]? = some c) :
    ∃ before after, w.chores = before ++ c :: after ∧ (w.take place).chores = before ++ after := by
  obtain ⟨within, rfl⟩ := List.getElem?_eq_some_iff.mp found
  refine ⟨w.chores.take place, w.chores.drop (place + 1), ?_, ?_⟩
  · rw [List.getElem_cons_drop, List.take_append_drop]
  · exact List.eraseIdx_eq_take_drop_succ ..

/-- One chore or one observer is to settle a promise, or nobody is and it is settled. -/
structure Only (w : Web ι) (t : PromiseRef) (x : Token ι) : Prop where
  /-- the promise was made -/
  made : w.Made t
  /-- the chores that are to settle it -/
  chores : aiming t w.chores = x.chores
  /-- the observers that are to settle it -/
  waiting : ∀ p, aimed t (w.promise p).waiting = x.waiters p
  /-- it is settled -/
  settled : (w.result? t).isSome ↔ x = .done

namespace Only

variable {x y : Token ι}

theorem result?_eq_none (h : w.Only t x) (underway : x ≠ .done) : w.result? t = none :=
  Option.not_isSome_iff_eq_none.mp (h.settled.not.mpr underway)

/-- A promise that the token waits for has no result. -/
theorem free {p : PromiseRef} {k : Observer ι} (h : w.Only t (.waiting p k)) : w.result? p = none := by
  by_contra settled
  obtain ⟨r, known⟩ := Option.ne_none_iff_exists'.mp settled
  have waits := h.waiting p
  rw [waiting_of_result w known] at waits
  simp [aimed, Token.waiters] at waits

/-- A promise that the token waits for was made. -/
theorem made_of_waiting {p : PromiseRef} {k : Observer ι} (h : w.Only t (.waiting p k)) : w.Made p := by
  by_contra missing
  have waits := h.waiting p
  rw [waiting_of_not_made w missing] at waits
  simp [aimed, Token.waiters] at waits

/-- A chore that is taken and is to settle the promise is the token, and then it is held. -/
theorem take_self (h : w.Only t x) {place : Nat} {c : Chore ι} (found : w.chores[place]? = some c)
    (aims : c.target? = some t) : x = .chore c ∧ (w.take place).Only t .held := by
  obtain ⟨before, after, all, rest⟩ := exists_split_of_take found
  have token := h.chores
  rw [all, aiming_append, aiming_cons_self aims] at token
  -- The token is the only chore that is to settle the promise, so nothing is beside the one taken.
  have alone : x = .chore c ∧ aiming t before = [] ∧ aiming t after = [] := by
    cases x with
    | chore c' => simp_all [Token.chores, List.append_eq_cons_iff]
    | _ => simp [Token.chores] at token
  obtain ⟨rfl, none_before, none_after⟩ := alone
  refine ⟨rfl, h.made, ?_, h.waiting, h.settled.trans (by simp)⟩
  rw [rest, aiming_append, none_before, none_after]
  rfl

/-- A chore that is taken and settles another promise is not the token. -/
theorem take_of_ne (h : w.Only t x) {place : Nat} {c : Chore ι} (found : w.chores[place]? = some c)
    (apart : c.target? ≠ some t) : (w.take place).Only t x := by
  obtain ⟨before, after, all, rest⟩ := exists_split_of_take found
  refine ⟨h.made, ?_, h.waiting, h.settled⟩
  have token := h.chores
  rwa [all, aiming_append, aiming_cons_of_ne apart, ← aiming_append, ← rest] at token

theorem report (h : w.Only t x) (answer : Report) : (w.report answer).Only t x :=
  ⟨h.made, h.chores, h.waiting, h.settled⟩

/-- When no promise changes, the token stays where it is, or it is one of the chores that come. -/
theorem grows (h : w.Only t x) {chores : List (Chore ι)} {invocations : List Invocation}
    {links : List (Link ι)} (g : w.Grows chores invocations links w')
    (token : x.chores ++ aiming t chores = y.chores) (waits : ∀ p, y.waiters p = x.waiters p)
    (done : x = .done ↔ y = .done) : w'.Only t y where
  made := g.made h.made
  chores := by rw [g.chores, aiming_append, h.chores, token]
  waiting p := by rw [g.promise, h.waiting, waits]
  settled := by rw [g.result?, h.settled, done]

/-- When no promise changes and chores come that settle others, the token stays where it is. -/
theorem grows_of_ne (h : w.Only t x) {chores : List (Chore ι)} {invocations : List Invocation}
    {links : List (Link ι)} (g : w.Grows chores invocations links w')
    (apart : ∀ c ∈ chores, c.target? ≠ some t) : w'.Only t x :=
  h.grows g (by rw [aiming_eq_nil apart, List.append_nil]) (fun _ ↦ rfl) .rfl

/-- When no promise changes, a token that was held is the chore that comes and is to settle the promise. -/
theorem grows_held (h : w.Only t .held) {c : Chore ι} {chores : List (Chore ι)}
    {invocations : List Invocation} {links : List (Link ι)}
    (g : w.Grows (c :: chores) invocations links w') (aims : c.target? = some t)
    (apart : ∀ c ∈ chores, c.target? ≠ some t) : w'.Only t (.chore c) :=
  h.grows g (by rw [aiming_cons_self aims, aiming_eq_nil apart]; rfl) (fun _ ↦ rfl) (by simp)

/-- When another promise is settled, a token that waited for it has its result. -/
theorem settle_of_ne (h : w.Only t x) {p : PromiseRef} (apart : t ≠ p) (r : Settled) :
    (w.settle p r).Only t (x.told p r) where
  made := (made_settle w r).mpr h.made
  chores := by
    rw [chores_settle, aiming_append, aiming_map_react, h.chores, h.waiting, Token.chores_told]
  waiting q := by
    by_cases same : q = p
    · subst same
      rw [Token.waiters_told_self, waiting_settle_self]
      rfl
    · rw [promise_settle_of_ne w same, Token.waiters_told_of_ne same, h.waiting]
  settled := by
    rw [result?, promise_settle_of_ne w apart]
    exact h.settled.trans Token.told_eq_done.symm

/-- A token that is held settles the promise. -/
theorem settle_self (h : w.Only t .held) (r : Settled) :
    (w.settle t r).Only t .done ∧ (w.settle t r).result? t = some r := by
  have free := h.result?_eq_none (by simp)
  have known : (w.settle t r).result? t = some r := by
    rw [result?_settle_self w h.made, free, Option.getD_none]
  refine ⟨⟨(made_settle w r).mpr h.made, ?_, fun q ↦ ?_, by simp [known]⟩, known⟩
  · rw [chores_settle, aiming_append, aiming_map_react, h.chores, h.waiting]
    rfl
  · by_cases same : q = t
    · subst same
      rw [waiting_settle_self]
      rfl
    · rw [promise_settle_of_ne w same, h.waiting]
      rfl

/-- Another observer does not change the token. -/
theorem observe_of_ne (h : w.Only t x) {p : PromiseRef} {k : Observer ι} (apart : k.target? ≠ some t) :
    (w.observe p k).Only t x := by
  cases known : w.result? p with
  | some r =>
    rw [observe_of_some w known]
    exact h.grows_of_ne (grows_add w w.memory [.react k r]) (List.forall_mem_singleton.mpr apart)
  | none =>
    refine ⟨?_, ?_, fun q ↦ ?_, by rw [result?_observe]; exact h.settled⟩
    · rw [observe_of_none w known]
      exact (made_put w _).mpr h.made
    · rw [observe_of_none w known]
      exact h.chores
    · rw [observe_of_none w known]
      by_cases same : q = p
      · subst same
        by_cases made : w.Made q
        · rw [promise_put_self w made, Promise.waiting, aimed_append, aimed_singleton_of_ne apart,
            List.append_nil, h.waiting]
        · rw [put_of_not_made w made, h.waiting]
      · rw [promise_put_of_ne w same, h.waiting]

/-- A token that is held comes to another promise and waits there, or it gets the result. -/
theorem observe_self (h : w.Only t .held) {p : PromiseRef} (made : w.Made p) {k : Observer ι}
    (aims : k.target? = some t) :
    (w.observe p k).Only t (.waiting p k) ∨
      ∃ r, w.result? p = some r ∧ (w.observe p k).Only t (.chore (.react k r)) := by
  cases known : w.result? p with
  | some r =>
    refine .inr ⟨r, rfl, ?_⟩
    rw [observe_of_some w known]
    exact h.grows_held (grows_add w w.memory [.react k r]) aims (by simp)
  | none =>
    refine .inl ⟨?_, ?_, fun q ↦ ?_, ?_⟩
    · rw [observe_of_none w known]
      exact (made_put w _).mpr h.made
    · rw [observe_of_none w known]
      exact h.chores
    · rw [observe_of_none w known, Token.waiters]
      by_cases same : p = q
      · subst same
        rw [promise_put_self w made, Promise.waiting, aimed_append, aimed_singleton aims, h.waiting,
          if_pos rfl]
        rfl
      · rw [promise_put_of_ne w (Ne.symm same), h.waiting, if_neg same]
        rfl
    · rw [result?_observe]
      exact h.settled.trans (by simp)

/-- A promise that was not made is mentioned by nobody, so a chore that comes for it is the only one. -/
theorem of_new (known : w.Known) (new : ¬ w.Made t) {c : Chore ι} {invocations : List Invocation}
    {links : List (Link ι)} (g : w.Grows [c] invocations links w') (made : w'.Made t)
    (aims : c.target? = some t) : w'.Only t (.chore c) where
  made := made
  chores := by
    -- A chore that was to settle the promise would mention it, and what is mentioned was made.
    have nobody : ∀ c ∈ w.chores, c.target? ≠ some t := fun c there aims ↦
      new (known.chores c there t (Chore.mem_mentions aims))
    rw [g.chores, aiming_append, aiming_eq_nil nobody, aiming_singleton aims]
    rfl
  waiting p := by
    have nobody : ∀ k ∈ (w.promise p).waiting, k.target? ≠ some t := fun k there aims ↦
      new (known.waiting p k there t aims)
    rw [g.promise]
    exact List.filter_eq_nil_iff.mpr (by simpa using nobody)
  settled := by
    rw [g.result?, result?_of_not_made w new]
    simp

end Only

end Troupe.Web
