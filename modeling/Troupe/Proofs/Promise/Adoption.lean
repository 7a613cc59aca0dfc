import Mathlib.Logic.Relation
import Troupe.Proofs.Promise.Ahead

/-!
# Adoption

A promise that adopts another is not reserved for it: it may adopt several, itself too, and be settled
directly before the result of any of them reaches it.  Who adopts whom is a graph, which may have cycles.

* Nothing comes from nowhere (`Sourced`): a result was taken directly by a promise that is reached from its
  bearer along adoptions.
* Nothing gets lost (`Pursued`): an adopter has a result, or the adoption waits at the other promise, or it
  is a chore.

The main statement is `adoption_settles`: the chores come to an end, and then the promises that have a result
are those that reach one which was settled directly, and theirs is the result of such a one.
-/

namespace Troupe.Web

variable {ι : Type} {w w' : Web ι}

/-- A call let a promise adopt another, and was answered so. -/
def Adopts (w : Web ι) (p other : PromiseRef) : Prop := .adopted p other true ∈ w.reports

/-- A call settled a promise with a result, and was answered so. -/
def Takes (w : Web ι) (p : PromiseRef) (r : Settled) : Prop := .settled p r true ∈ w.reports

/-- A result was taken by a promise that is reached from another along adoptions. -/
def Origin (w : Web ι) (p : PromiseRef) (r : Settled) : Prop :=
  ∃ d, Relation.ReflTransGen w.Adopts p d ∧ w.Takes d r

/-- An origin stays when more is reported. -/
theorem Origin.mono {p : PromiseRef} {r : Settled} (h : w.Origin p r)
    (more : ∀ a ∈ w.reports, a ∈ w'.reports) : w'.Origin p r := by
  obtain ⟨d, reached, taken⟩ := h
  exact ⟨d, Relation.ReflTransGen.mono (fun _ _ adopts ↦ more _ adopts) _ _ reached, more _ taken⟩

/-- Who adopts a promise shares its origins. -/
theorem Origin.adopts {p other : PromiseRef} {r : Settled} (h : w.Origin other r)
    (adopts : w.Adopts p other) : w.Origin p r := by
  obtain ⟨d, reached, taken⟩ := h
  exact ⟨d, reached.head adopts, taken⟩

/-! ## Nothing comes from nowhere -/

/-- A chore that passes a result on has an origin for it, and one that is about to wait was adopted. -/
def Backed (w : Web ι) : Chore ι → Prop
  | .react (.adopt target) r => w.Origin target r
  | .observe p (.adopt target) => w.Adopts target p
  | _ => True

/-- Results have origins, in promises and on their way. -/
structure Sourced (w : Web ι) : Prop where
  /-- results of promises -/
  result : ∀ p r, w.result? p = some r → w.Origin p r
  /-- results and adoptions in chores -/
  chores : ∀ c ∈ w.chores, w.Backed c
  /-- adoptions that wait -/
  waiting : ∀ p target, .adopt target ∈ (w.promise p).waiting → w.Adopts target p

theorem Backed.mono {c : Chore ι} (h : w.Backed c) (more : ∀ a ∈ w.reports, a ∈ w'.reports) :
    w'.Backed c := by
  unfold Backed at h ⊢
  split
  · exact Origin.mono h more
  · exact more _ h
  · trivial

theorem sourced_ofMemory (memory : Memory ι) : (ofMemory memory).Sourced := by
  constructor <;> simp [ofMemory, result?, promise, Promise.fresh, Promise.waiting, Promise.result?]

/-- A reaction other than adoption passes nothing on. -/
theorem Reaction.backed {k : Observer ι} {r : Settled} {chores : List (Chore ι)}
    {invocations : List Invocation} (h : w.Reaction k r chores invocations) (v : Web ι) :
    ∀ c ∈ chores, v.Backed c := by
  cases h <;> simp [Backed]

/-- A reaction in one of the other ways is not adoption. -/
theorem Reaction.ne_adopt {k : Observer ι} {r : Settled} {chores : List (Chore ι)}
    {invocations : List Invocation} (h : w.Reaction k r chores invocations) (target : PromiseRef) :
    k ≠ .adopt target := by
  cases h with
  | passed stage => cases stage <;> simp [Stage.observer]
  | _ => simp

namespace Sourced

theorem grows (h : w.Sourced) {chores : List (Chore ι)} {invocations : List Invocation}
    {links : List (Link ι)} (g : w.Grows chores invocations links w')
    (backed : ∀ c ∈ chores, w'.Backed c) : w'.Sourced where
  result p r known := (h.result p r (g.result? p ▸ known)).mono (by simp [g.reports])
  chores c known := by
    rw [g.chores, List.mem_append] at known
    rcases known with old | new
    · exact (h.chores c old).mono (by simp [g.reports])
    · exact backed c new
  waiting p target waits := by
    rw [g.promise] at waits
    have adopts := h.waiting p target waits
    rwa [Adopts, ← g.reports] at adopts

theorem take (h : w.Sourced) (place : Nat) : (w.take place).Sourced :=
  ⟨h.result, fun c known ↦ h.chores c (List.mem_of_mem_eraseIdx known), h.waiting⟩

theorem report (h : w.Sourced) (answer : Report) : (w.report answer).Sourced := by
  have more : ∀ a ∈ w.reports, a ∈ (w.report answer).reports := fun a ↦ List.mem_append_left _
  exact ⟨fun p r known ↦ (h.result p r known).mono more, fun c known ↦ (h.chores c known).mono more,
    fun p target waits ↦ more _ (h.waiting p target waits)⟩

/-- A promise that takes a result passes it on to those that wait for it. -/
theorem settle (h : w.Sourced) {p : PromiseRef} {r : Settled}
    (origin : w.result? p = none → w.Origin p r) : (w.settle p r).Sourced where
  result q r' known := by
    rcases result?_settle_cases w known with before | ⟨rfl, rfl, free⟩
    · exact h.result q r' before
    · exact origin free
  chores c known := by
    rw [chores_settle, List.mem_append, List.mem_map] at known
    rcases known with old | ⟨k, waits, rfl⟩
    · exact h.chores c old
    · cases k with
      | adopt target =>
        have free : w.result? p = none := by
          by_contra settled
          obtain ⟨first, known⟩ := Option.ne_none_iff_exists'.mp settled
          rw [waiting_of_result w known] at waits
          cases waits
        exact (origin free).adopts (h.waiting p target waits)
      | _ => trivial
  waiting q target waits := h.waiting q target (mem_waiting_settle waits)

theorem observe (h : w.Sourced) {p : PromiseRef} {k : Observer ι} (backed : w.Backed (.observe p k)) :
    (w.observe p k).Sourced := by
  cases known : w.result? p with
  | some r =>
    rw [observe_of_some w known]
    refine h.grows (grows_add w w.memory [.react k r]) (List.forall_mem_singleton.mpr ?_)
    cases k with
    | adopt target => exact (h.result p r known).adopts backed
    | _ => trivial
  | none =>
    rw [observe_of_none w known]
    refine ⟨fun q r found ↦ h.result q r ?_, h.chores, fun q target waits ↦ ?_⟩
    · rw [← observe_of_none w known] at found
      rwa [result?_observe] at found
    · rcases mem_waiting_put waits with before | ⟨rfl, rfl⟩
      · exact h.waiting q target before
      · exact backed

theorem react (h : w.Sourced) {k : Observer ι} {r : Settled} (backed : w.Backed (.react k r)) :
    (w.react k r).Sourced := by
  rcases react_cases w k r with ⟨target, rfl⟩ | ⟨chores, invocations, reaction, grows, -⟩
  · exact h.settle fun _ ↦ backed
  · exact h.grows grows (reaction.backed _)

/-- A promise that is settled directly is the origin of its result. -/
theorem settleDirectly (h : w.Sourced) (p : PromiseRef) (o : Outcome Value) :
    (w.perform (.settle p o)).Sourced := by
  have order : w.perform (.settle p o) =
      (w.report (.settled p o.settled ((w.promise p).settle o.settled).2.1)).settle p o.settled := rfl
  rw [order]
  refine (h.report _).settle fun free ↦ ⟨p, .refl, ?_⟩
  rw [Takes, (taken_iff w o.settled).mpr free]
  exact List.mem_append_right _ (List.mem_singleton_self _)

theorem perform (h : w.Sourced) {c : Chore ι} (backed : w.Backed c) : (w.perform c).Sourced := by
  cases c with
  | react k r => exact h.react backed
  | settle p o => exact h.settleDirectly p o
  | adopt p other =>
    rw [Web.perform]
    cases (w.promise p).isSettled with
    | true => exact h.report _
    | false =>
      refine (h.report _).grows (grows_add _ w.memory [.observe other (.adopt p)])
        (List.forall_mem_singleton.mpr ?_)
      exact List.mem_append_right _ (List.mem_singleton_self _)
  | observe p k => exact h.observe backed

theorem call (h : w.Sourced) (c : Call ι) : (w.call c).Sourced := by
  obtain ⟨chore, links, start, grows, -⟩ := call_cases w c
  refine h.grows grows (List.forall_mem_singleton.mpr ?_)
  cases start with
  | link p target stage new => cases stage <;> trivial
  | _ => trivial

/-- Every event keeps origins for all results. -/
theorem step (h : w.Sourced) {e : Event ι} (step : w.step? e = some w') : w'.Sourced := by
  cases e with
  | call c =>
    cases step
    exact h.call c
  | work place =>
    obtain ⟨c, found, rfl⟩ := Option.map_eq_some_iff.mp step
    exact (h.take place).perform (h.chores c (List.mem_of_getElem? found))

end Sourced

/-! ## Nothing gets lost -/

/-- A chore brings an adoption further: the adopter comes to the other promise, or is told its result. -/
def Pursues (target other : PromiseRef) (c : Chore ι) : Prop :=
  c = .observe other (.adopt target) ∨ ∃ r, c = .react (.adopt target) r

/-- An adopter has a result, or it waits for that of the other promise, or a chore brings it further. -/
def Reaches (w : Web ι) (chores : List (Chore ι)) (target other : PromiseRef) : Prop :=
  (w.result? target).isSome ∨ .adopt target ∈ (w.promise other).waiting ∨
    ∃ c ∈ chores, Pursues target other c

/-- Adoptions and results are kept, with some chores held that were taken out to be done. -/
structure Pursued (w : Web ι) (held : List (Chore ι)) : Prop where
  /-- adoptions get further -/
  adopts : ∀ target other, w.Adopts target other → w.Reaches (held ++ w.chores) target other
  /-- results that were taken are there -/
  takes : ∀ p r, w.Takes p r → w.result? p = some r

theorem pursued_ofMemory (memory : Memory ι) : (ofMemory memory).Pursued [] := by
  constructor <;> simp [ofMemory, Adopts, Takes]

namespace Pursued

variable {held : List (Chore ι)}

/-- A chore that is taken out to be done is held. -/
theorem take (h : w.Pursued []) {place : Nat} {c : Chore ι} (found : w.chores[place]? = some c) :
    (w.take place).Pursued [c] where
  adopts target other adopts := by
    refine (h.adopts target other adopts).imp_right (.imp_right ?_)
    rintro ⟨c', known, pursues⟩
    exact ⟨c', (Dispatch.Traffic.perm_of_getElem? found).mem_iff.mpr known, pursues⟩
  takes := h.takes

/-- When no promise changes, an adoption that was held needs a chore that brings it further. -/
theorem grows (h : w.Pursued held) {chores : List (Chore ι)} {invocations : List Invocation}
    {links : List (Link ι)} (g : w.Grows chores invocations links w')
    (further : ∀ c ∈ held, ∀ target other, Pursues target other c →
      ∃ c' ∈ chores, Pursues target other c') : w'.Pursued [] where
  adopts target other adopts := by
    rw [Adopts, g.reports] at adopts
    rw [Reaches, g.result?, g.promise, List.nil_append, g.chores]
    refine (h.adopts target other adopts).imp_right (.imp_right ?_)
    rintro ⟨c, known, pursues⟩
    rcases List.mem_append.mp known with taken | old
    · obtain ⟨c', new, pursues⟩ := further c taken target other pursues
      exact ⟨c', List.mem_append_right _ new, pursues⟩
    · exact ⟨c, List.mem_append_left _ old, pursues⟩
  takes p r taken := by
    rw [Takes, g.reports] at taken
    rw [g.result?]
    exact h.takes p r taken

/-- An answer may be given that is true. -/
theorem report (h : w.Pursued held) {answer : Report}
    (adopted : ∀ target other, answer = .adopted target other true →
      w.Reaches (held ++ w.chores) target other)
    (taken : ∀ p r, answer = .settled p r true → w.result? p = some r) :
    (w.report answer).Pursued held where
  adopts target other adopts := by
    rcases List.mem_append.mp adopts with old | new
    · exact h.adopts target other old
    · exact adopted target other (List.mem_singleton.mp new).symm
  takes p r takes := by
    rcases List.mem_append.mp takes with old | new
    · exact h.takes p r old
    · exact taken p r (List.mem_singleton.mp new).symm

/-- A promise that is settled tells those that adopt it.  An adopter that was held gets a result so. -/
theorem settle (h : w.Pursued held) (p : PromiseRef) (r : Settled)
    (told : ∀ c ∈ held, ∀ target other, Pursues target other c →
      ((w.settle p r).result? target).isSome) : (w.settle p r).Pursued [] where
  adopts target other adopts := by
    rcases h.adopts target other adopts with known | waits | ⟨c, known, pursues⟩
    · obtain ⟨first, known⟩ := Option.isSome_iff_exists.mp known
      exact .inl (by simp [result?_settle_of_some w known])
    · by_cases same : other = p
      · subst same
        refine .inr (.inr ⟨.react (.adopt target) r, ?_, .inr ⟨r, rfl⟩⟩)
        rw [chores_settle]
        exact List.mem_append_right _ (List.mem_append_right _ (List.mem_map_of_mem waits))
      · exact .inr (.inl (by rwa [promise_settle_of_ne w same]))
    · rcases List.mem_append.mp known with taken | old
      · exact .inl (told c taken target other pursues)
      · refine .inr (.inr ⟨c, ?_, pursues⟩)
        rw [chores_settle]
        exact List.mem_append_right _ (List.mem_append_left _ old)
  takes q first taken := result?_settle_of_some w (h.takes q first taken) r

/-- An adopter that comes to the other promise waits there, or is about to be told. -/
theorem observe {p : PromiseRef} {k : Observer ι} (h : w.Pursued [.observe p k]) (made : w.Made p) :
    (w.observe p k).Pursued [] := by
  cases known : w.result? p with
  | some r =>
    rw [observe_of_some w known]
    refine h.grows (grows_add w w.memory [.react k r]) ?_
    rintro c held target other pursues
    rw [List.mem_singleton] at held
    subst held
    rcases pursues with same | ⟨r', same⟩
    · cases same
      exact ⟨_, List.mem_singleton_self _, .inr ⟨r, rfl⟩⟩
    · cases same
  | none =>
    refine ⟨fun target other adopts ↦ ?_, fun q r taken ↦ ?_⟩
    · rw [Reaches, result?_observe]
      have before : w.Adopts target other := by
        rwa [observe_of_none w known] at adopts
      rcases h.adopts target other before with known' | waits | ⟨c, known', pursues⟩
      · exact .inl known'
      · exact .inr (.inl ((mem_waiting_observe made known).mpr (.inl waits)))
      · rcases List.mem_cons.mp known' with rfl | old
        · rcases pursues with same | ⟨r, same⟩
          · cases same
            exact .inr (.inl ((mem_waiting_observe made known).mpr (.inr ⟨rfl, rfl⟩)))
          · cases same
        · refine .inr (.inr ⟨c, ?_, pursues⟩)
          rwa [observe_of_none w known]
    · rw [result?_observe]
      rw [observe_of_none w known] at taken
      exact h.takes q r taken

/-- A reaction other than adoption brings no adoption further, and needs not. -/
theorem react {k : Observer ι} {r : Settled} (h : w.Pursued [.react k r])
    (made : ∀ t, k.target? = some t → w.Made t) : (w.react k r).Pursued [] := by
  rcases react_cases w k r with ⟨target, rfl⟩ | ⟨chores, invocations, reaction, grows, -⟩
  · refine h.settle target r ?_
    rintro c held t other pursues
    rw [List.mem_singleton] at held
    subst held
    rcases pursues with same | ⟨r', same⟩
    · cases same
    · cases same
      simp [result?_settle_self w (made target rfl)]
  · refine h.grows grows ?_
    rintro c held t other pursues
    rw [List.mem_singleton] at held
    subst held
    rcases pursues with same | ⟨r', same⟩
    · cases same
    · obtain ⟨adopts, -⟩ : k = .adopt t ∧ r = r' := by simpa using same
      exact absurd adopts (reaction.ne_adopt t)

theorem perform {c : Chore ι} (h : w.Pursued [c]) (made : ∀ p ∈ c.mentions, w.Made p) :
    (w.perform c).Pursued [] := by
  cases c with
  | react k r => exact h.react fun t aims ↦ made t (Option.mem_toList.mpr aims)
  | settle p o =>
    refine (h.settle p o.settled ?_).report (by simp) ?_
    · simp [Pursues]
    · intro q r answered
      obtain ⟨rfl, rfl, taken⟩ : p = q ∧ o.settled = r ∧
          ((w.promise p).settle o.settled).2.1 = true := by simpa using answered
      have there : w.Made p := made p (List.mem_singleton_self p)
      rw [result?_settle_self w there, (taken_iff w o.settled).mp taken, Option.getD_none]
  | adopt p other =>
    have brings : ∀ c : Chore ι, c ∈ [.adopt p other] → ∀ target q, ¬ Pursues target q c := by
      simp [Pursues]
    rw [Web.perform]
    cases (w.promise p).isSettled with
    | true =>
      have kept := h.grows (grows_add w w.memory []) fun c held t q pursues ↦
        absurd pursues (brings c held t q)
      exact Pursued.report (w := w) (by simpa [add] using kept) (by simp) (by simp)
    | false =>
      have order : (w.report (.adopted p other true)).add [.observe other (.adopt p)] =
          (w.add [.observe other (.adopt p)]).report (.adopted p other true) := rfl
      refine order ▸ (h.grows (grows_add w w.memory [.observe other (.adopt p)]) fun c held t q pursues ↦
        absurd pursues (brings c held t q)).report ?_ (by simp)
      intro target q answered
      obtain ⟨rfl, rfl⟩ : p = target ∧ other = q := by simpa using answered
      exact .inr (.inr ⟨.observe other (.adopt p),
        List.mem_append_right w.chores (List.mem_singleton_self _), .inl rfl⟩)
  | observe p k => exact h.observe (made p (List.mem_cons_self ..))

/-- Every event keeps adoptions and results. -/
theorem step (h : w.Pursued []) (known : w.Known) {e : Event ι} (step : w.step? e = some w') :
    w'.Pursued [] := by
  cases e with
  | call c =>
    cases step
    obtain ⟨chore, links, -, grows, -⟩ := call_cases w c
    exact h.grows grows (by simp)
  | work place =>
    obtain ⟨c, found, rfl⟩ := Option.map_eq_some_iff.mp step
    exact (h.take found).perform (known.chores c (List.mem_of_getElem? found))

/-- When nothing is left to do, a promise has a result if one has that it adopts. -/
theorem isSome_of_adopts (h : w.Pursued []) (done : w.chores = []) {p other : PromiseRef}
    (adopts : w.Adopts p other) (settled : (w.result? other).isSome) : (w.result? p).isSome := by
  obtain ⟨r, known⟩ := Option.isSome_iff_exists.mp settled
  have reaches := h.adopts p other adopts
  simpa [Reaches, waiting_of_result w known, done] using reaches

/-- When nothing is left to do, all promises that lead to one with a result have results. -/
theorem isSome_of_reached (h : w.Pursued []) (done : w.chores = []) {p d : PromiseRef}
    (reached : Relation.ReflTransGen w.Adopts p d) (settled : (w.result? d).isSome) :
    (w.result? p).isSome := by
  -- From the end of the path: a result travels against the adoptions.
  induction reached using Relation.ReflTransGen.head_induction_on with
  | refl => exact settled
  | head adopts _ ih => exact h.isSome_of_adopts done adopts ih

end Pursued

/-! ## Nobody else answers -/

/-- A call settles a promise or lets one adopt another. -/
def Call.Plain : Call ι → Prop
  | .settle _ _ | .adopt _ _ => True
  | _ => False

/-- A chore is what is left of one of the calls: it is the call, or an adoption on its way. -/
def Chore.Owed (events : List (Event ι)) : Chore ι → Prop
  | .settle p o => .call (.settle p o) ∈ events
  | .adopt p other => .call (.adopt p other) ∈ events
  | .observe _ k | .react k _ => ∃ target, k = .adopt target

/-- An answer is one to a call that was made. -/
def Report.Owed (events : List (Event ι)) : Report → Prop
  | .settled p r _ => ∃ o, .call (.settle p o) ∈ events ∧ o.settled = r
  | .adopted p other _ => .call (.adopt p other) ∈ events

/-- All that is done and answered is due to the calls. -/
structure Owed (events : List (Event ι)) (w : Web ι) : Prop where
  /-- what is left to do -/
  chores : ∀ c ∈ w.chores, c.Owed events
  /-- who waits -/
  waiting : ∀ p, ∀ k ∈ (w.promise p).waiting, ∃ target, k = .adopt target
  /-- what was answered -/
  reports : ∀ a ∈ w.reports, a.Owed events

namespace Owed

variable {events : List (Event ι)}

theorem ofMemory (memory : Memory ι) : Owed events (ofMemory memory) := by
  constructor <;> simp [Web.ofMemory, promise, Promise.fresh, Promise.waiting]

theorem add (h : Owed events w) {c : Chore ι} (owed : c.Owed events) : Owed events (w.add [c]) := by
  refine ⟨fun c' known ↦ ?_, h.waiting, h.reports⟩
  rcases List.mem_append.mp known with old | new
  · exact h.chores c' old
  · exact List.mem_singleton.mp new ▸ owed

theorem report (h : Owed events w) {a : Report} (owed : a.Owed events) : Owed events (w.report a) := by
  refine ⟨h.chores, h.waiting, fun a' known ↦ ?_⟩
  rcases List.mem_append.mp known with old | new
  · exact h.reports a' old
  · exact List.mem_singleton.mp new ▸ owed

theorem settle (h : Owed events w) (p : PromiseRef) (r : Settled) : Owed events (w.settle p r) where
  chores c known := by
    rw [chores_settle, List.mem_append, List.mem_map] at known
    rcases known with old | ⟨k, waits, rfl⟩
    · exact h.chores c old
    · exact h.waiting p k waits
  waiting q k waits := h.waiting q k (mem_waiting_settle waits)
  reports := h.reports

theorem observe (h : Owed events w) (p target : PromiseRef) :
    Owed events (w.observe p (.adopt target)) := by
  cases known : w.result? p with
  | some r =>
    rw [observe_of_some w known]
    exact h.add ⟨target, rfl⟩
  | none =>
    rw [observe_of_none w known]
    refine ⟨h.chores, fun q k waits ↦ ?_, h.reports⟩
    rcases mem_waiting_put waits with old | ⟨-, rfl⟩
    · exact h.waiting q k old
    · exact ⟨target, rfl⟩

theorem perform (h : Owed events w) {c : Chore ι} (owed : c.Owed events) :
    Owed events (w.perform c) := by
  cases c with
  | react k r =>
    obtain ⟨target, rfl⟩ := owed
    exact h.settle target r
  | settle p o => exact (h.settle p o.settled).report ⟨o, owed, rfl⟩
  | adopt p other =>
    have asked := h.report (a := .adopted p other !(w.promise p).isSettled) owed
    rw [Web.perform]
    split
    · exact asked
    · exact asked.add ⟨p, rfl⟩
  | observe p k =>
    obtain ⟨target, rfl⟩ := owed
    exact h.observe p target

theorem call (h : Owed events w) {c : Call ι} (plain : c.Plain) (made : .call c ∈ events) :
    Owed events (w.call c) := by
  obtain ⟨chore, links, start, grows, -⟩ := call_cases w c
  have owed : chore.Owed events := by
    cases start with
    | settle p o | adopt p other => exact made
    | _ => exact plain.elim
  refine ⟨fun c' known ↦ ?_, fun p k waits ↦ ?_, fun a known ↦ h.reports a (grows.reports ▸ known)⟩
  · rw [grows.chores, List.mem_append, List.mem_singleton] at known
    rcases known with old | rfl
    · exact h.chores c' old
    · exact owed
  · exact h.waiting p k (grows.promise p ▸ waits)

/-- Every event keeps all due to the calls, if it is no other call. -/
theorem step (h : Owed events w) {e : Event ι} (there : e ∈ events)
    (plain : ∀ c, .call c ∈ events → c.Plain) (step : w.step? e = some w') : Owed events w' := by
  cases e with
  | call c =>
    cases step
    exact h.call (plain c there) there
  | work place =>
    obtain ⟨c, found, rfl⟩ := Option.map_eq_some_iff.mp step
    have taken : Owed events (w.take place) :=
      ⟨fun c known ↦ h.chores c (List.mem_of_mem_eraseIdx known), h.waiting, h.reports⟩
    exact taken.perform (h.chores c (List.mem_of_getElem? found))

end Owed

/-! ## The main statement -/

/-- Whatever calls were made and whatever was done in between, only so many chores follow, in every order.
When none is left, a promise has a result if and only if adoptions lead from it to one that took a result
directly, and its result is one that such a promise took.  If promises were only settled and let adopt each
other, these are the calls that were made and answered so. -/
theorem adoption_settles {memory : Memory ι} {events : List (Event ι)}
    (run : (ofMemory memory).run? events = some w) :
    (∀ (places : List Nat) w', w.run? (places.map .work) = some w' → places.length ≤ w.ahead) ∧
    (∃ (places : List Nat) (w' : Web ι), w.run? (places.map .work) = some w' ∧ w'.chores = []) ∧
    (w.chores = [] → ∀ p,
      ((w.result? p).isSome ↔ ∃ d r, Relation.ReflTransGen w.Adopts p d ∧ w.Takes d r) ∧
      ∀ r, w.result? p = some r → ∃ d, Relation.ReflTransGen w.Adopts p d ∧ w.Takes d r) ∧
    ((∀ c, .call c ∈ events → c.Plain) →
      (∀ d r, w.Takes d r → ∃ o, .call (.settle d o) ∈ events ∧ o.settled = r) ∧
      ∀ p other, w.Adopts p other → .call (.adopt p other) ∈ events) := by
  have sourced : w.Sourced :=
    run_induction (fun _ sourced step ↦ sourced.step step) run (sourced_ofMemory memory)
  have pursued : w.Known ∧ w.Pursued [] :=
    run_induction (P := fun w ↦ w.Known ∧ w.Pursued [])
      (fun _ kept step ↦ ⟨kept.1.step step, kept.2.step kept.1 step⟩) run
      ⟨known_ofMemory memory, pursued_ofMemory memory⟩
  refine ⟨fun places w' ↦ length_le_ahead, exists_run_done w, fun done p ↦ ⟨⟨fun settled ↦ ?_, ?_⟩,
    sourced.result p⟩, fun plain ↦ ?_⟩
  · obtain ⟨r, known⟩ := Option.isSome_iff_exists.mp settled
    obtain ⟨d, reached, taken⟩ := sourced.result p r known
    exact ⟨d, r, reached, taken⟩
  · rintro ⟨d, r, reached, taken⟩
    exact pursued.2.isSome_of_reached done reached (by simp [pursued.2.takes d r taken])
  · have owed : Owed events w :=
      run_induction (fun there owed step ↦ owed.step there plain step) run (.ofMemory memory)
    exact ⟨fun d r taken ↦ owed.reports _ taken, fun p other adopts ↦ owed.reports _ adopts⟩

/-- Two promises adopt each other, a third adopts one of them, a fourth adopts itself, and two results race
for a promise of the cycle. -/
def cycle : List (Event Unit) :=
  [.call (.adopt ⟨0⟩ ⟨1⟩), .call (.adopt ⟨1⟩ ⟨0⟩), .call (.adopt ⟨2⟩ ⟨0⟩), .call (.adopt ⟨3⟩ ⟨3⟩),
    .work 3, .work 3, .work 0, .work 0, .work 1,
    .call (.settle ⟨1⟩ .undefined), .work 2, .call (.settle ⟨1⟩ (.error "late")), .work 3,
    .work 1, .work 1, .work 1, .work 0, .work 0, .work 0]

/-- The result goes round the cycle and out of it, the late one is lost, and the promise that adopts itself
waits for ever. -/
theorem adoption_settles_cycle :
    ∃ w, (ofMemory Memory.empty).run? cycle = some w ∧ w.chores = [] ∧
      w.reports = [.adopted ⟨3⟩ ⟨3⟩ true, .adopted ⟨0⟩ ⟨1⟩ true, .adopted ⟨1⟩ ⟨0⟩ true,
        .settled ⟨1⟩ (.ok .null) true, .settled ⟨1⟩ (.error "late") false,
        .adopted ⟨2⟩ ⟨0⟩ true] ∧
      (∀ p, (w.result? p).isSome ↔ ∃ d r, Relation.ReflTransGen w.Adopts p d ∧ w.Takes d r) ∧
      (w.result? ⟨0⟩, w.result? ⟨1⟩, w.result? ⟨2⟩, w.result? ⟨3⟩) =
        (some (.ok .null), some (.ok .null), some (.ok .null), none) := by
  have run : (ofMemory Memory.empty).run? cycle = some _ := rfl
  obtain ⟨-, -, settled, -⟩ := adoption_settles run
  exact ⟨_, run, rfl, rfl, fun p ↦ (settled rfl p).1, rfl⟩

end Troupe.Web
