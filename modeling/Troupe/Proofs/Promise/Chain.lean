import Troupe.Proofs.Promise.Token

/-!
# Chains

A chain is built stage by stage, each attached to the promise that was made for the one before.  The promises
may get their results before, while or after it is built.

* A link of a chain is underway (`Underway`): it waits for its source, or its stage got the value and what it
  answered is on its way to the target.
* What is underway stays so at every event that does not decide the target from outside
  (`Underway.step`), and arrives when nothing is left to do (`Underway.arrived`).

The main statement is `chain_folds`: the last promise of a chain has the result that the steps come to, one
after the other, and a step gets a value only if none before it failed.
-/

namespace Troupe.Web

variable {ι : Type} {w w' : Web ι}

/-! ## Stages -/

/-- The stage made for a promise, each time that it got a value. -/
def invoked (w : Web ι) (t : PromiseRef) : List Invocation := w.invocations.filter (·.target = t)

/-- The answer is what the function of the stage gives for the value, with the memory as it is then. -/
inductive Stage.Answers : Stage ι → Value → Answer → Prop where
  /-- the function came back -/
  | replied (f : Value → Memory ι → Reply × Memory ι) (v : Value) (memory : Memory ι) :
      Answers (.step f) v (.replied (f v memory).1)
  /-- it led to a promise -/
  | led (f : Value → Memory ι → Continuation ι × Memory ι) (v : Value) (memory : Memory ι)
      (new q : PromiseRef) (own : List (Outcome Value)) (answered : Leads new q own (f v memory).1) :
      Answers (.follow f) v (.led q)
  /-- it panicked -/
  | panicked (f : Value → Memory ι → Continuation ι × Memory ι) (v : Value) (memory : Memory ι)
      (message : String) (answered : (f v memory).1 = .panicked message) :
      Answers (.follow f) v (.panicked message)

/-- The stage of a link got the value of the source, once, and answered so. -/
structure Answered (w : Web ι) (l : Link ι) (v : Value) (answer : Answer) : Prop where
  /-- the source has the value -/
  source : w.result? l.source = some (.ok v)
  /-- the stage got it once -/
  once : w.invoked l.target = [⟨l.target, v, answer⟩]
  /-- the answer is that of the stage -/
  answers : l.stage.Answers v answer

/-- What the target of a link is to be settled with, other than the result of a promise that the stage led
to. -/
inductive Due (w : Web ι) (l : Link ι) : Settled → Prop where
  /-- the error of the source -/
  | passed (e : String) (source : w.result? l.source = some (.error e))
      (never : w.invoked l.target = []) : Due w l (.error e)
  /-- what the stage came back with -/
  | replied (v : Value) (reply : Reply) (answered : w.Answered l v (.replied reply)) :
      Due w l (reply.caught .continuation).settled
  /-- an error: the stage panicked -/
  | panicked (v : Value) (message : String) (answered : w.Answered l v (.panicked message)) :
      Due w l (.error (DispatchError.panicked .continuation message).message)

/-- The stage of a link led to a promise. -/
def Led (w : Web ι) (l : Link ι) (q : PromiseRef) : Prop := ∃ v, w.Answered l v (.led q)

/-- The observer that a link is. -/
def Link.observer (l : Link ι) : Observer ι := l.stage.observer l.target

/-- How far a link got, by who is to settle its target. -/
inductive Stands (w : Web ι) (l : Link ι) : Token ι → Prop where
  /-- it is brought to its source -/
  | coming (never : w.invoked l.target = []) : Stands w l (.chore (.observe l.source l.observer))
  /-- it waits there -/
  | waiting (never : w.invoked l.target = []) : Stands w l (.waiting l.source l.observer)
  /-- it gets the result of its source -/
  | called (r : Settled) (known : w.result? l.source = some r) (never : w.invoked l.target = []) :
      Stands w l (.chore (.react l.observer r))
  /-- its target is settled -/
  | settling (o : Outcome Value) (due : w.Due l o.settled) : Stands w l (.chore (.settle l.target o))
  /-- its target is to adopt the promise that it led to -/
  | adopting (q : PromiseRef) (led : w.Led l q) : Stands w l (.chore (.adopt l.target q))
  /-- its target comes to that promise -/
  | following (q : PromiseRef) (led : w.Led l q) : Stands w l (.chore (.observe q (.adopt l.target)))
  /-- its target waits there -/
  | watching (q : PromiseRef) (led : w.Led l q) : Stands w l (.waiting q (.adopt l.target))
  /-- its target gets the result of that promise -/
  | passing (q : PromiseRef) (r : Settled) (led : w.Led l q) (known : w.result? q = some r) :
      Stands w l (.chore (.react (.adopt l.target) r))
  /-- its target has what was due -/
  | settled (r : Settled) (known : w.result? l.target = some r) (due : w.Due l r) : Stands w l .done
  /-- its target has the result of the promise that it led to -/
  | followed (q : PromiseRef) (r : Settled) (known : w.result? l.target = some r) (led : w.Led l q)
      (same : w.result? q = some r) : Stands w l .done

/-- Results stay, and the stage of a link gets no value. -/
structure Keeps (w w' : Web ι) (l : Link ι) : Prop where
  /-- results stay -/
  result : ∀ {p r}, w.result? p = some r → w'.result? p = some r
  /-- the stage gets no value -/
  invoked : w'.invoked l.target = w.invoked l.target

section Keeps

variable {l : Link ι}

theorem Grows.invoked {chores : List (Chore ι)} {invocations : List Invocation} {links : List (Link ι)}
    (g : w.Grows chores invocations links w') (t : PromiseRef) :
    w'.invoked t = w.invoked t ++ invocations.filter (·.target = t) := by
  rw [Web.invoked, g.invocations, List.filter_append]
  rfl

theorem Grows.keeps {chores : List (Chore ι)} {invocations : List Invocation} {links : List (Link ι)}
    (g : w.Grows chores invocations links w') (apart : ∀ i ∈ invocations, i.target ≠ l.target) :
    w.Keeps w' l where
  result {p r} known := by rw [g.result?, known]
  invoked := by
    rw [g.invoked, List.filter_eq_nil_iff.mpr (by simpa using apart), List.append_nil]

theorem keeps_settle (w : Web ι) (p : PromiseRef) (r : Settled) : w.Keeps (w.settle p r) l :=
  ⟨fun known ↦ result?_settle_of_some w known r, rfl⟩

theorem keeps_observe (w : Web ι) (p : PromiseRef) (k : Observer ι) : w.Keeps (w.observe p k) l where
  result known := by rw [result?_observe, known]
  invoked := by
    cases known : w.result? p with
    | some r =>
      rw [observe_of_some w known]
      rfl
    | none =>
      rw [observe_of_none w known]
      rfl

theorem Answered.mono {v : Value} {answer : Answer} (h : w.Answered l v answer) (keeps : w.Keeps w' l) :
    w'.Answered l v answer :=
  ⟨keeps.result h.source, keeps.invoked.trans h.once, h.answers⟩

theorem Due.mono {r : Settled} (h : w.Due l r) (keeps : w.Keeps w' l) : w'.Due l r := by
  cases h with
  | passed e source never => exact .passed e (keeps.result source) (keeps.invoked.trans never)
  | replied v reply answered => exact .replied v reply (answered.mono keeps)
  | panicked v message answered => exact .panicked v message (answered.mono keeps)

theorem Led.mono {q : PromiseRef} (h : w.Led l q) (keeps : w.Keeps w' l) : w'.Led l q :=
  h.imp fun _ answered ↦ answered.mono keeps

theorem Stands.mono {x : Token ι} (h : w.Stands l x) (keeps : w.Keeps w' l) : w'.Stands l x := by
  cases h with
  | coming never => exact .coming (keeps.invoked.trans never)
  | waiting never => exact .waiting (keeps.invoked.trans never)
  | called r known never => exact .called r (keeps.result known) (keeps.invoked.trans never)
  | settling o due => exact .settling o (due.mono keeps)
  | adopting q led => exact .adopting q (led.mono keeps)
  | following q led => exact .following q (led.mono keeps)
  | watching q led => exact .watching q (led.mono keeps)
  | passing q r led known => exact .passing q r (led.mono keeps) (keeps.result known)
  | settled r known due => exact .settled r (keeps.result known) (due.mono keeps)
  | followed q r known led same =>
    exact .followed q r (keeps.result known) (led.mono keeps) (keeps.result same)

/-- A link that waited for a promise that is settled gets its result. -/
theorem Stands.told {x : Token ι} (h : w.Stands l x) (only : w.Only l.target x) (p : PromiseRef)
    (r : Settled) : (w.settle p r).Stands l (x.told p r) := by
  have keeps : w.Keeps (w.settle p r) l := keeps_settle w p r
  have known {k : Observer ι} (only : w.Only l.target (.waiting p k)) :
      (w.settle p r).result? p = some r := by
    rw [result?_settle_self w only.made_of_waiting, only.free, Option.getD_none]
  have stays : (w.settle p r).Stands l x := h.mono keeps
  -- Settling a promise moves a link only where it waits; anywhere else its token stays what it is.
  cases h with
  | waiting never =>
    rw [Token.told]
    split
    · rename_i same
      subst same
      exact .called r (known only) (keeps.invoked.trans never)
    · exact .waiting (keeps.invoked.trans never)
  | watching q led =>
    rw [Token.told]
    split
    · rename_i same
      subst same
      exact .passing q r (led.mono keeps) (known only)
    · exact .watching q (led.mono keeps)
  | _ => exact stays

end Keeps

/-! ## Links underway -/

/-- A link got somewhere, and nobody but its token is to settle its target. -/
def Underway (w : Web ι) (l : Link ι) : Prop := ∃ x, w.Only l.target x ∧ w.Stands l x

/-- A stage that leads to a promise settles it only if the promise is new. -/
theorem Leads.settle_target?_ne {new q t : PromiseRef} {own : List (Outcome Value)} {c : Continuation ι}
    (h : Leads new q own c) (apart : new ≠ t) :
    ∀ c ∈ own.map (Chore.settle (ι := ι) q), c.target? ≠ some t := by
  cases h <;> simp [Chore.target?, apart]

/-- What a reaction leads to settles the target of the observer, or a new promise. -/
theorem Reaction.target?_ne {k : Observer ι} {r : Settled} {chores : List (Chore ι)}
    {invocations : List Invocation} (h : w.Reaction k r chores invocations) {t : PromiseRef}
    (made : w.Made t) (apart : k.target? ≠ some t) : ∀ c ∈ chores, c.target? ≠ some t := by
  cases h with
  | passed stage target e => simpa [Chore.target?] using apart
  | replied target f v => simpa [Chore.target?, Observer.target?] using apart
  | led target f v q own answered =>
    exact List.forall_mem_cons.mpr ⟨apart, answered.settle_target?_ne made.ne_next.symm⟩
  | panicked target f v message answered => simpa [Chore.target?, Observer.target?] using apart
  | wrapped target member path r v => simpa [Chore.target?, Observer.target?] using apart
  | watched f r => simp

namespace Underway

variable {l : Link ι}

theorem report (h : w.Underway l) (answer : Report) : (w.report answer).Underway l := by
  obtain ⟨x, only, stands⟩ := h
  exact ⟨x, only.report answer, stands.mono ⟨id, rfl⟩⟩

theorem grows (h : w.Underway l) {chores : List (Chore ι)} {invocations : List Invocation}
    {links : List (Link ι)} (g : w.Grows chores invocations links w')
    (apart : ∀ c ∈ chores, c.target? ≠ some l.target)
    (never : ∀ i ∈ invocations, i.target ≠ l.target) : w'.Underway l := by
  obtain ⟨x, only, stands⟩ := h
  exact ⟨x, only.grows_of_ne g apart, stands.mono (g.keeps never)⟩

/-- Another promise may be settled. -/
theorem settle_of_ne (h : w.Underway l) {p : PromiseRef} (apart : l.target ≠ p) (r : Settled) :
    (w.settle p r).Underway l := by
  obtain ⟨x, only, stands⟩ := h
  exact ⟨x.told p r, only.settle_of_ne apart r, stands.told only p r⟩

/-- Another observer may come to a promise. -/
theorem observe_of_ne (h : w.Underway l) {p : PromiseRef} {k : Observer ι}
    (apart : k.target? ≠ some l.target) : (w.observe p k).Underway l := by
  obtain ⟨x, only, stands⟩ := h
  exact ⟨x, only.observe_of_ne apart, stands.mono (keeps_observe w p k)⟩

/-- Another chore may be done. -/
theorem perform_of_ne (h : w.Underway l) {c : Chore ι} (apart : c.target? ≠ some l.target) :
    (w.perform c).Underway l := by
  cases c with
  | react k r =>
    rcases react_cases w k r with ⟨target, rfl⟩ | ⟨chores, invocations, reaction, grows, -⟩
    · exact h.settle_of_ne (fun same ↦ apart (congrArg some same.symm)) r
    · obtain ⟨x, only, -⟩ := id h
      refine h.grows grows (reaction.target?_ne only.made apart) fun i added same ↦ ?_
      exact apart (same ▸ reaction.target?_eq i added)
  | settle p o =>
    exact (h.settle_of_ne (fun same ↦ apart (congrArg some same.symm)) o.settled).report _
  | adopt p other =>
    rw [Web.perform]
    split
    · exact h.report _
    · exact (h.report _).grows (grows_add _ w.memory [.observe other (.adopt p)])
        (List.forall_mem_singleton.mpr apart) (by simp)
  | observe p k => exact h.observe_of_ne apart

/-- A stage that gets the result of its source answers or passes an error on. -/
theorem react {r : Settled} (only : w.Only l.target .held) (known : w.result? l.source = some r)
    (never : w.invoked l.target = []) : (w.react l.observer r).Underway l := by
  have once {v : Value} {answer : Answer} {chores : List (Chore ι)} {w' : Web ι}
      (g : w.Grows chores [⟨l.target, v, answer⟩] [] w') :
      w'.invoked l.target = [⟨l.target, v, answer⟩] := by
    rw [g.invoked, never]
    simp
  obtain ⟨source, target, stage⟩ := l
  -- The error of the source goes the same way whatever the stage is.
  have passes (e : String) (failed : w.result? source = some (.error e)) :
      (w.add [.settle target (.error e)]).Underway ⟨source, target, stage⟩ := by
    have grows := grows_add w w.memory [.settle target (.error e)]
    refine ⟨_, only.grows_held grows rfl (by simp),
      .settling (.error e) (.passed e ((grows.result? source).trans failed) ?_)⟩
    rw [grows.invoked, never]
    rfl
  cases stage with
  | step f =>
    cases r with
    | error e => exact passes e known
    | ok v =>
      have grows := grows_invoke w (f v w.memory).2 ⟨target, v, .replied (f v w.memory).1⟩
        [.settle target ((f v w.memory).1.caught .continuation)]
      exact ⟨_, only.grows_held grows rfl (by simp), .settling _ (.replied v _
        ⟨(grows.result? source).trans known, once grows, .replied f v w.memory⟩)⟩
  | follow f =>
    cases r with
    | error e => exact passes e known
    | ok v =>
      rcases continueWith_cases w (f v w.memory).2 target v (f v w.memory).1 with
        ⟨q, own, answered, -, grows⟩ | ⟨message, answered, grows⟩
      · have apart := answered.settle_target?_ne only.made.ne_next.symm
        exact ⟨_, only.grows_held grows rfl apart, .adopting q ⟨v, (grows.result? source).trans known,
          once grows, .led f v w.memory w.next q own answered⟩⟩
      · exact ⟨_, only.grows_held grows rfl (by simp), .settling (.error _) (.panicked v message
          ⟨(grows.result? source).trans known, once grows, .panicked f v w.memory message answered⟩)⟩

/-- The target comes to another promise, or the link to its source, and waits there or gets the result. -/
theorem observe_self (only : w.Only l.target .held) {p : PromiseRef} {k : Observer ι} (made : w.Made p)
    (aims : k.target? = some l.target) (waits : w.Stands l (.waiting p k))
    (gets : ∀ r, w.result? p = some r → w.Stands l (.chore (.react k r))) :
    (w.observe p k).Underway l := by
  have keeps : w.Keeps (w.observe p k) l := keeps_observe w p k
  rcases only.observe_self made aims with there | ⟨r, known, there⟩
  · exact ⟨_, there, waits.mono keeps⟩
  · exact ⟨_, there, (gets r known).mono keeps⟩

/-- The chore that is the token brings the link further. -/
theorem perform_self {c : Chore ι} (only : w.Only l.target .held) (stands : w.Stands l (.chore c))
    (made : ∀ p ∈ c.mentions, w.Made p) : (w.perform c).Underway l := by
  cases stands with
  | coming never =>
    exact observe_self only (made l.source (List.mem_cons_self ..)) (l.stage.target?_observer l.target)
      (.waiting never) fun r known ↦ .called r known never
  | called r known never => exact react only known never
  | settling o due =>
    obtain ⟨done, known⟩ := only.settle_self o.settled
    exact Underway.report ⟨.done, done, .settled _ known (due.mono (keeps_settle w _ _))⟩ _
  | adopting q led =>
    have free : (w.promise l.target).isSettled = false := by
      have unsettled := only.result?_eq_none (by simp)
      rw [result?] at unsettled
      rw [Promise.isSettled, unsettled]
      rfl
    rw [Web.perform, free]
    have grows := grows_add (w.report (.adopted l.target q true)) w.memory [.observe q (.adopt l.target)]
    exact ⟨_, (only.report _).grows_held grows rfl (by simp), .following q (led.mono ⟨id, rfl⟩)⟩
  | following q led =>
    exact observe_self only (made q (List.mem_cons_self ..)) rfl (.watching q led) fun r known ↦
      .passing q r led known
  | passing q r led known =>
    have keeps : w.Keeps (w.settle l.target r) l := keeps_settle w l.target r
    obtain ⟨done, now⟩ := only.settle_self r
    exact ⟨.done, done, .followed q r now (led.mono keeps) (keeps.result known)⟩

/-- A call from outside that does not decide the target leaves the link underway. -/
theorem call (h : w.Underway l) {c : Call ι} (apart : c.decides? ≠ some l.target) :
    (w.call c).Underway l := by
  obtain ⟨chore, links, start, grows, -⟩ := call_cases w c
  obtain ⟨x, only, -⟩ := id h
  refine h.grows grows (List.forall_mem_singleton.mpr ?_) (by simp)
  cases start with
  | settle p o | adopt p other | wrap p target member path => exact apart
  | watch p f => simp [Chore.target?, Observer.target?]
  | link p target stage new =>
    rw [Chore.target?, Stage.target?_observer]
    rintro same
    cases same
    exact new only.made

/-- A link that is made is underway. -/
theorem of_call (known : w.Known) {c : Call ι} (new : l ∈ (w.call c).links) (old : l ∉ w.links) :
    (w.call c).Underway l := by
  obtain ⟨chore, links, start, grows, made⟩ := call_cases w c
  rw [grows.links, List.mem_append] at new
  have added := new.resolve_left old
  cases start with
  | link p target stage fresh =>
    rw [List.mem_singleton] at added
    subst added
    have aims : (Chore.observe p (stage.observer target)).target? = some target :=
      stage.target?_observer target
    have never : w.invoked target = [] := List.filter_eq_nil_iff.mpr fun i known' ↦ by
      have there := known.invocations i known'
      simp only [decide_eq_true_eq]
      rintro rfl
      exact fresh there
    refine ⟨_, .of_new known fresh grows (made target (Chore.mem_mentions aims)) aims, .coming ?_⟩
    rw [grows.invoked, never]
    rfl
  | _ => simp at added

/-- Every event leaves a link underway, unless it decides the target from outside. -/
theorem step (h : w.Underway l) (known : w.Known) {e : Event ι}
    (apart : ∀ c, e = .call c → c.decides? ≠ some l.target) (step : w.step? e = some w') :
    w'.Underway l := by
  cases e with
  | call c =>
    cases step
    exact h.call (apart c rfl)
  | work place =>
    obtain ⟨c, found, rfl⟩ := Option.map_eq_some_iff.mp step
    obtain ⟨x, only, stands⟩ := h
    by_cases aims : c.target? = some l.target
    · obtain ⟨rfl, held⟩ := only.take_self found aims
      exact perform_self held (stands.mono ⟨id, rfl⟩)
        (known.chores c (List.mem_of_getElem? found))
    · exact perform_of_ne ⟨x, only.take_of_ne found aims, stands.mono ⟨id, rfl⟩⟩ aims

/-- When nothing is left to do, a link has arrived if its source and the promise that it led to have
results. -/
theorem arrived (h : w.Underway l) (done : w.chores = []) (source : (w.result? l.source).isSome)
    (inner : ∀ q, w.Led l q → (w.result? q).isSome) :
    ∃ r, w.result? l.target = some r ∧ (w.Due l r ∨ ∃ q, w.Led l q ∧ w.result? q = some r) := by
  obtain ⟨x, only, stands⟩ := h
  have nothing : x.chores = [] := by
    rw [← only.chores, done]
    rfl
  cases stands with
  | settled r known due => exact ⟨r, known, .inl due⟩
  | followed q r known led same => exact ⟨r, known, .inr ⟨q, led, same⟩⟩
  | waiting never => simp [only.free] at source
  | watching q led =>
    have settled := inner q led
    simp [only.free] at settled
  | _ => cases nothing

end Underway

/-- Chores add no links. -/
theorem links_perform (w : Web ι) (c : Chore ι) : (w.perform c).links = w.links := by
  cases c with
  | react k r =>
    rcases react_cases w k r with ⟨target, rfl⟩ | ⟨chores, invocations, -, grows, -⟩
    · rfl
    · exact grows.links.trans (List.append_nil _)
  | settle p o => rfl
  | adopt p other =>
    rw [perform]
    split <;> rfl
  | observe p k =>
    rw [perform, observe]
    split <;> rfl

/-- In every web that a run reaches, the links are underway whose targets no call decided from outside. -/
theorem underway_of_run {memory : Memory ι} {events : List (Event ι)}
    (run : (ofMemory memory).run? events = some w) {l : Link ι}
    (own : ∀ c, .call c ∈ events → c.decides? ≠ some l.target) (made : l ∈ w.links) : w.Underway l := by
  have kept := run_induction (P := fun w ↦ w.Known ∧ (l ∈ w.links → w.Underway l)) ?_ run
    ⟨known_ofMemory memory, by simp [ofMemory]⟩
  · exact kept.2 made
  · rintro w w' e there ⟨known, underway⟩ step
    refine ⟨known.step step, fun now ↦ ?_⟩
    -- Until the link is made nothing is claimed of it; only the call that makes it can be the first.
    by_cases before : l ∈ w.links
    · exact (underway before).step known (fun c same ↦ own c (same ▸ there)) step
    · cases e with
      | call c =>
        cases step
        exact .of_call known now before
      | work place =>
        obtain ⟨c, -, rfl⟩ := Option.map_eq_some_iff.mp step
        rw [links_perform] at now
        exact absurd now before

/-! ## Chains of steps -/

/-- What a step of a chain makes of a value. -/
inductive Step where
  /-- a function comes back with an outcome, or panics -/
  | result (reply : Value → Reply)
  /-- a function leads to a promise with an outcome, or panics -/
  | promise (lead : Value → Except String (Outcome Value))

/-- The outcome of a step for a value. -/
def Step.outcome (v : Value) : Step → Outcome Value
  | .result reply =>
    match reply v with
    | .returned o => o
    | .panicked message => .error ("continuation panicked: " ++ message)
  | .promise lead =>
    match lead v with
    | .ok o => o
    | .error message => .error ("continuation panicked: " ++ message)

/-- What comes of a result and a step: an error passes, and an undefined outcome counts as null. -/
def Step.apply : Settled → Step → Settled
  | .error e, _ => .error e
  | .ok v, s => (s.outcome v).settled

/-- A stage that answered so to a value did what the step says, and a promise that it led to has the
outcome. -/
inductive Step.Gives (w : Web ι) : Step → Value → Answer → Prop where
  /-- it came back -/
  | replied (reply : Value → Reply) (v : Value) : Gives w (.result reply) v (.replied (reply v))
  /-- it led to a promise -/
  | led (lead : Value → Except String (Outcome Value)) (v : Value) (q : PromiseRef) (o : Outcome Value)
      (leads : lead v = .ok o) (settled : w.result? q = some o.settled) : Gives w (.promise lead) v (.led q)
  /-- it panicked -/
  | panicked (lead : Value → Except String (Outcome Value)) (v : Value) (message : String)
      (panics : lead v = .error message) : Gives w (.promise lead) v (.panicked message)

/-- The stage of a link does what a step says, whenever it gets a value. -/
def Performs (w : Web ι) (l : Link ι) (s : Step) : Prop :=
  ∀ i ∈ w.invoked l.target, s.Gives w i.value i.answer

/-- Links that hang on each other lead from one promise to another, each performing a step. -/
def Chained (w : Web ι) : PromiseRef → List (Link ι × Step) → PromiseRef → Prop
  | root, [], last => last = root
  | root, (l, s) :: rest, last =>
    l ∈ w.links ∧ l.source = root ∧ w.Performs l s ∧ w.Chained l.target rest last

/-- A step that a stage performed for a value came to what its target was to be settled with. -/
theorem Answered.performs {l : Link ι} {v : Value} {answer : Answer} {s : Step}
    (h : w.Answered l v answer) (performs : w.Performs l s) :
    s.Gives w v answer ∧ (w.invoked l.target).map (·.value) = [v] := by
  rw [Performs, h.once, List.forall_mem_singleton] at performs
  exact ⟨performs, by rw [h.once]; rfl⟩

/-- When nothing is left to do, a link whose source has a result did its step, for a value and once. -/
theorem Underway.performs {l : Link ι} {s : Step} {r : Settled} (h : w.Underway l)
    (done : w.chores = []) (known : w.result? l.source = some r) (performs : w.Performs l s) :
    w.result? l.target = some (Step.apply r s) ∧
      (w.invoked l.target).map (·.value) = r.toOption.toList ∧
      ∀ i ∈ w.invoked l.target, l.stage.Answers i.value i.answer := by
  have answers {v : Value} {answer : Answer} (answered : w.Answered l v answer) :
      r = .ok v ∧ ∀ i ∈ w.invoked l.target, l.stage.Answers i.value i.answer := by
    refine ⟨by simpa [known] using answered.source, ?_⟩
    rw [answered.once, List.forall_mem_singleton]
    exact answered.answers
  have inner (q : PromiseRef) (led : w.Led l q) :
      ∃ v o, w.Answered l v (.led q) ∧ s.outcome v = o ∧ w.result? q = some o.settled := by
    obtain ⟨v, answered⟩ := led
    cases (answered.performs performs).1 with
    | led lead v q o leads settled => exact ⟨v, o, answered, by rw [Step.outcome, leads], settled⟩
  obtain ⟨r', now, due | ⟨q, led, same⟩⟩ := h.arrived done (by rw [known]; rfl) fun q led ↦ by
    obtain ⟨-, o, -, -, settled⟩ := inner q led
    rw [settled]
    rfl
  · rw [now]
    cases due with
    | passed e source never =>
      obtain rfl : r = .error e := by simpa [known] using source
      rw [never]
      exact ⟨rfl, rfl, by simp⟩
    | replied v reply answered =>
      obtain ⟨rfl, given⟩ := answers answered
      obtain ⟨gives, once⟩ := answered.performs performs
      refine ⟨?_, once, given⟩
      cases gives with
      | replied reply v =>
        rw [Step.apply, Step.outcome]
        cases reply v <;> rfl
    | panicked v message answered =>
      obtain ⟨rfl, given⟩ := answers answered
      obtain ⟨gives, once⟩ := answered.performs performs
      refine ⟨?_, once, given⟩
      cases gives with
      | panicked lead v message panics =>
        rw [Step.apply, Step.outcome, panics]
        rfl
  · obtain ⟨v, o, answered, outcome, settled⟩ := inner q led
    obtain ⟨rfl, given⟩ := answers answered
    refine ⟨?_, (answered.performs performs).2, given⟩
    rw [now, ← same, settled, Step.apply, outcome]

/-- When nothing is left to do and the first promise of a chain has an outcome, the last has what the steps
come to one after the other.  A stage got a value if and only if no step before it failed, and then once:
what the steps before it came to.  It answered what its function gave for it. -/
theorem chain_folds {memory : Memory ι} {events : List (Event ι)}
    (run : (ofMemory memory).run? events = some w) (done : w.chores = []) {root last : PromiseRef}
    {chain : List (Link ι × Step)} (chained : w.Chained root chain last)
    (own : ∀ x ∈ chain, ∀ c, .call c ∈ events → c.decides? ≠ some x.1.target) {o : Outcome Value}
    (known : w.result? root = some o.settled) :
    w.result? last = some ((chain.map Prod.snd).foldl Step.apply o.settled) ∧
    ∀ before x after, chain = before ++ x :: after →
      (w.invoked x.1.target).map (·.value) =
        ((before.map Prod.snd).foldl Step.apply o.settled).toOption.toList ∧
      ∀ i ∈ w.invoked x.1.target, x.1.stage.Answers i.value i.answer := by
  -- Each link starts from what the one before came to, so the induction is for any first result.
  generalize o.settled = r at known
  induction chain generalizing root r with
  | nil =>
    cases chained
    exact ⟨known, by simp⟩
  | cons x rest ih =>
    obtain ⟨made, rfl, performs, chained⟩ := chained
    have underway := underway_of_run run (own x (List.mem_cons_self ..)) made
    obtain ⟨next, values, answers⟩ := underway.performs done known performs
    obtain ⟨result, later⟩ := ih chained (fun y among ↦ own y (List.mem_cons_of_mem x among)) _ next
    refine ⟨result, ?_⟩
    rintro (_ | ⟨first, before⟩) y after split
    · cases split
      exact ⟨values, answers⟩
    · cases split
      exact later before y after rfl

/-- Four links after promise 0: one comes back with nothing, one leads to promise 1, one panics, and one
comes back with nothing again. -/
def legs : List (Link Unit × Step) :=
  [(⟨⟨0⟩, ⟨2⟩, .step fun _ m ↦ (.returned .undefined, m)⟩, .result fun _ ↦ .returned .undefined),
    (⟨⟨2⟩, ⟨3⟩, .follow fun _ m ↦ (.promise ⟨1⟩, m)⟩, .promise fun _ ↦ .ok (.value (.int 7))),
    (⟨⟨3⟩, ⟨4⟩, .step fun _ m ↦ (.panicked "boom", m)⟩, .result fun _ ↦ .panicked "boom"),
    (⟨⟨4⟩, ⟨5⟩, .step fun _ m ↦ (.returned .undefined, m)⟩, .result fun _ ↦ .returned .undefined)]

/-- Promise 0 is settled while the links are made, and promise 1 when it is waited for. -/
def journey : List (Event Unit) :=
  [.call (.watch ⟨1⟩ fun _ m ↦ m), .work 0,
    .call (.link ⟨0⟩ (.step fun _ m ↦ (.returned .undefined, m))), .work 0,
    .call (.settle ⟨0⟩ (.value (.int 4))), .work 0, .work 0, .work 0,
    .call (.link ⟨2⟩ (.follow fun _ m ↦ (.promise ⟨1⟩, m))),
    .call (.link ⟨3⟩ (.step fun _ m ↦ (.panicked "boom", m))),
    .call (.link ⟨4⟩ (.step fun _ m ↦ (.returned .undefined, m))), .work 2,
    .work 0, .work 1, .work 1, .work 1, .call (.settle ⟨1⟩ (.value (.int 7))),
    .work 0, .work 0, .work 0, .work 0, .work 0, .work 0, .work 0, .work 0]

/-- The first step forgets the value, the second gets null and makes a detour, the third panics, and the
fourth gets nothing. -/
theorem chain_folds_journey :
    ∃ w, (ofMemory Memory.empty).run? journey = some w ∧ w.chores = [] ∧
      w.result? ⟨5⟩ = some (.error "continuation panicked: boom") ∧
      legs.map (fun x ↦ (w.invoked x.1.target).map (·.value)) =
        [[.int 4], [.null], [.int 7], []] := by
  obtain ⟨w, run, done, links, invocations, root, inner⟩ :
      ∃ w, (ofMemory Memory.empty).run? journey = some w ∧ w.chores = [] ∧
        w.links = legs.map Prod.fst ∧
        w.invocations = [⟨⟨2⟩, .int 4, .replied (.returned .undefined)⟩, ⟨⟨3⟩, .null, .led ⟨1⟩⟩,
          ⟨⟨4⟩, .int 7, .replied (.panicked "boom")⟩] ∧
        w.result? ⟨0⟩ = some (.ok (.int 4)) ∧ w.result? ⟨1⟩ = some (.ok (.int 7)) :=
    ⟨_, rfl, rfl, rfl, rfl, rfl, rfl⟩
  have chained : w.Chained ⟨0⟩ legs ⟨5⟩ := by
    have known : ∀ x ∈ legs, x.1 ∈ w.links := fun x among ↦ links ▸ List.mem_map_of_mem among
    simp only [legs, List.forall_mem_cons] at known
    refine ⟨known.1, rfl, ?_, known.2.1, rfl, ?_, known.2.2.1, rfl, ?_, known.2.2.2.1, rfl, ?_, rfl⟩
    · simpa [Performs, invoked, invocations] using .replied _ _
    · simpa [Performs, invoked, invocations] using .led _ _ _ _ rfl inner
    · simpa [Performs, invoked, invocations] using .replied _ _
    · simp [Performs, invoked, invocations]
  obtain ⟨last, each⟩ := chain_folds run done chained (by simp [legs, journey, Call.decides?])
    (o := .value (.int 4)) root
  refine ⟨w, run, done, last, ?_⟩
  have first := (each [] _ _ rfl).1
  have second := (each [_] _ _ rfl).1
  have third := (each [_, _] _ _ rfl).1
  have fourth := (each [_, _, _] _ _ rfl).1
  simp only [legs, List.map_cons, List.map_nil, first, second, third, fourth]
  rfl

end Troupe.Web
