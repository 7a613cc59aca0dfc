import Troupe.Proofs.Promise.Chain
import Troupe.Proofs.System.Group

/-!
# Answers through nested groups

A message that goes through groups inside groups leaves a promise at each of them (`Web.Hop`), and the
answer of the leaf comes back from one to the next: the innermost group wraps it, which makes a map, and
every group around it puts the name of its member in front of the way that the map tells.

* A hop waits for the one inside, or gets its result (`Web.Hop.Before`), and then its promise is settled
  with the map (`Web.Hop.After`).
* All hops together are `Web.Progress`: those outside wait, one has the map, and those inside it are done.
* A chore of a hop brings the answer further (`Web.Progress.perform`), and what else happens does not move
  it (`Web.Progress.step`), as long as nobody else decides the promises of the hops or changes the map on
  its way.  So after a `Web.Course` the hops have just so many chores less ahead (`Web.Course.progress`).
-/

namespace Troupe

/-! ## The map of an answer -/

/-- What the answer of a group holds, by the path of the message and the result that the leaf came to. -/
def answered (path : String) : Settled → Entries Value
  | .ok v => [("error", .null), ("source", .string path), ("value", v)]
  | .error message => [("error", .string message), ("source", .string path), ("value", .null)]

namespace Heap

variable {h : Heap} {r : Settled}

/-- A result is no map that tells its way. -/
def Untold (h : Heap) (r : Settled) : Prop := ∀ m, r = .ok (.map m) → h.source? m = none

/-- Such a result is wrapped in a new map. -/
theorem groupAnswer_of_untold (untold : h.Untold r) (member path : String) :
    ∃ m, (h.groupAnswer member path r).1 = .map m ∧
      (h.groupAnswer member path r).2.entries m = answered path r := by
  cases r with
  | error message => exact ⟨_, rfl, entries_newMap_self _⟩
  | ok v =>
    cases v with
    | map m =>
      rw [groupAnswer, untold m rfl]
      exact ⟨_, rfl, entries_newMap_self _⟩
    | null | bool b | int i | uint u | float x | string s | list l => exact ⟨_, rfl, entries_newMap_self _⟩

/-- The answer of a group inside gets the name of the member in front of its way. -/
theorem groupAnswer_of_answered {m : MapRef} {path : String} {a : Settled}
    (entries : h.entries m = answered path a) (member whole : String) :
    (h.groupAnswer member whole (.ok (.map m))).1 = .map m ∧
      (h.groupAnswer member whole (.ok (.map m))).2.entries m = answered (member ++ "/" ++ path) a := by
  have told : h.source? m = some path := by
    rw [source?, entries]
    cases a <;> rfl
  rw [groupAnswer_of_source? told]
  refine ⟨rfl, ?_⟩
  rw [entries_put (has_of_source? told), entries]
  cases a <;> rfl

end Heap

namespace Web

variable {ι : Type} {w w' : Web ι} {t : PromiseRef}

/-! ## What others do to a token -/

/-- Results are for good. -/
def Lasting (w w' : Web ι) : Prop := ∀ p r, w.result? p = some r → w'.result? p = some r

/-- The token of a promise is where it was, or it waited and got its result. -/
def Passes (w' : Web ι) (t : PromiseRef) (x : Token ι) : Prop :=
  ∃ y, w'.Only t y ∧
    (y = x ∨ ∃ p k r, x = .waiting p k ∧ y = .chore (.react k r) ∧ w'.result? p = some r)

namespace Only

variable {x : Token ι}

theorem mem_chores {c : Chore ι} (h : w.Only t (.chore c)) : c ∈ w.chores := by
  have listed : c ∈ aiming t w.chores := by
    rw [h.chores]
    exact List.mem_singleton_self c
  exact List.mem_of_mem_filter listed

theorem passes (h : w.Only t x) : w.Passes t x := ⟨x, h, .inl rfl⟩

/-- Another promise is settled. -/
theorem passes_settle (h : w.Only t x) {p : PromiseRef} (apart : t ≠ p) (r : Settled) :
    (w.settle p r).Passes t x := by
  refine ⟨x.told p r, h.settle_of_ne apart r, ?_⟩
  cases x with
  | waiting q k =>
    rw [Token.told]
    split
    · next same =>
      subst same
      refine .inr ⟨q, k, r, rfl, rfl, ?_⟩
      rw [result?_settle_self w h.made_of_waiting, h.free, Option.getD_none]
    · exact .inl rfl
  | chore c | held | done => exact .inl rfl

/-- A chore that is to settle another promise is done. -/
theorem passes_perform (h : w.Only t x) {c : Chore ι} (apart : c.target? ≠ some t) :
    (w.perform c).Passes t x := by
  cases c with
  | react k r =>
    rcases react_cases w k r with ⟨target, rfl⟩ | ⟨chores, invocations, reaction, grows, -⟩
    · apply h.passes_settle
      rintro rfl
      exact apart rfl
    · exact (h.grows_of_ne grows (reaction.target?_ne h.made apart)).passes
  | settle p o =>
    obtain ⟨y, only, moves⟩ := h.passes_settle (p := p) (fun same ↦ apart (congrArg some same.symm)) o.settled
    exact ⟨y, only.report _, moves⟩
  | adopt p other =>
    rw [Web.perform]
    split
    · exact (h.report _).passes
    · refine ((h.report _).grows_of_ne (grows_add _ w.memory [.observe other (.adopt p)]) ?_).passes
      exact List.forall_mem_singleton.mpr apart
  | observe p k => exact (h.observe_of_ne apart).passes

/-- A call is made that does not decide the promise. -/
theorem call_of_ne (h : w.Only t x) {c : Call ι} (apart : c.decides? ≠ some t) : (w.call c).Only t x := by
  obtain ⟨chore, links, start, grows, -⟩ := call_cases w c
  refine h.grows_of_ne grows (List.forall_mem_singleton.mpr ?_)
  cases start with
  | settle p o | adopt p other | wrap p target member path => exact apart
  | watch p f => simp [Chore.target?, Observer.target?]
  | link p target stage new =>
    rw [Chore.target?, Stage.target?_observer]
    rintro same
    cases same
    exact new h.made

end Only

theorem lasting_perform (w : Web ι) (c : Chore ι) : w.Lasting (w.perform c) := by
  intro p r known
  cases c with
  | react k r' =>
    rcases react_cases w k r' with ⟨target, rfl⟩ | ⟨chores, invocations, -, grows, -⟩
    · exact result?_settle_of_some w known r'
    · exact (grows.result? p).trans known
  | settle q o => exact result?_settle_of_some w known o.settled
  | adopt q other =>
    rw [Web.perform]
    split <;> exact known
  | observe q k => exact (result?_observe w k).trans known

/-- Whatever happens, results stay. -/
theorem lasting_step {e : Event ι} (step : w.step? e = some w') : w.Lasting w' := by
  cases e with
  | call c =>
    cases step
    obtain ⟨chore, links, -, grows, -⟩ := call_cases w c
    exact fun p r known ↦ (grows.result? p).trans known
  | work place =>
    obtain ⟨c, -, rfl⟩ := Option.map_eq_some_iff.mp step
    exact lasting_perform (w.take place) c

theorem memory_call (w : Web ι) (c : Call ι) : (w.call c).memory = w.memory := by
  cases c <;> rfl

theorem memory_observe (w : Web ι) (p : PromiseRef) (k : Observer ι) : (w.observe p k).memory = w.memory := by
  rw [observe]
  split <;> rfl

theorem made_observe {q : PromiseRef} (made : w.Made q) (p : PromiseRef) (k : Observer ι) :
    (w.observe p k).Made q := by
  rw [observe]
  split
  · exact made
  · exact (made_put w _).mpr made

/-! ## Hops -/

/-- A group on the way of a message: it waits for the answer of a member. -/
structure Hop where
  /-- the promise of the group -/
  target : PromiseRef
  /-- the name of the member -/
  member : String
  /-- the path on which the message came -/
  path : String

namespace Hop

/-- What a hop waits with for the answer of the member. -/
def observer (h : Hop) : Observer ι := .wrap h.target h.member h.path

/-- How far a hop got with the result of a promise, by its token, before it reacted. -/
inductive Before (w : Web ι) (source : PromiseRef) (h : Hop) : Token ι → Prop where
  /-- it is brought to the promise -/
  | coming : Before w source h (.chore (.observe source h.observer))
  /-- it waits there -/
  | waiting : Before w source h (.waiting source h.observer)
  /-- it gets the result -/
  | called (r : Settled) (known : w.result? source = some r) : Before w source h (.chore (.react h.observer r))

/-- How far a hop got that reacted with a map. -/
inductive After (w : Web ι) (h : Hop) (m : MapRef) : Token ι → Prop where
  /-- its promise is to be settled with the map -/
  | settling : After w h m (.chore (.settle h.target (.value (.map m))))
  /-- its promise has the map -/
  | settled (known : w.result? h.target = some (.ok (.map m))) : After w h m .done

/-- How many chores a hop has ahead, by its token. -/
def ahead : Token ι → Nat
  | .chore (.observe _ _) => 3
  | .chore (.react _ _) | .waiting _ _ => 2
  | .chore (.settle _ _) => 1
  | .chore (.adopt _ _) | .held | .done => 0

section

variable {h : Hop} {source : PromiseRef} {m : MapRef} {x : Token ι}

/-- Others do not move a hop. -/
theorem Before.pass (stands : h.Before w source x) (lasting : w.Lasting w') (passes : w'.Passes h.target x) :
    ∃ y, w'.Only h.target y ∧ h.Before w' source y ∧ ahead y = ahead x := by
  obtain ⟨y, only, rfl | ⟨p, k, r, rfl, rfl, known⟩⟩ := passes
  · refine ⟨y, only, ?_, rfl⟩
    cases stands with
    | coming => exact .coming
    | waiting => exact .waiting
    | called r known => exact .called r (lasting source r known)
  · cases stands
    exact ⟨_, only, .called r known, rfl⟩

theorem Before.result?_eq_none (stands : h.Before w source x) (only : w.Only h.target x) :
    w.result? h.target = none := by
  apply only.result?_eq_none
  cases stands <;> exact nofun

theorem After.pass (stands : h.After w m x) (lasting : w.Lasting w') (passes : w'.Passes h.target x) :
    w'.Only h.target x ∧ h.After w' m x := by
  obtain ⟨y, only, rfl | ⟨p, k, r, rfl, rfl, known⟩⟩ := passes
  · refine ⟨only, ?_⟩
    cases stands with
    | settling => exact .settling
    | settled known => exact .settled (lasting _ _ known)
  · cases stands

end

end Hop

/-- The promise of the outermost of some hops, or that of the leaf. -/
def outermost (leaf : PromiseRef) : List Hop → PromiseRef
  | [] => leaf
  | h :: _ => h.target

/-- Each hop sent its message on with what was left of the path. -/
def Nested (hops : List Hop) : Prop := hops.IsChain fun h i ↦ h.path = h.member ++ "/" ++ i.path

/-- How far the answer of the leaf came on its way out: the hops outside wait, one has the map, and those
inside it are done.  The number counts the chores that the hops have ahead. -/
inductive Progress (w : Web ι) (leaf : PromiseRef) : List Hop → Nat → Prop where
  /-- there are no groups on the way -/
  | none : Progress w leaf [] 0
  /-- the outermost hop has not reacted -/
  | before {h : Hop} {inner : List Hop} {n : Nat} {x : Token ι} (only : w.Only h.target x)
      (stands : h.Before w (outermost leaf inner) x) (more : Progress w leaf inner n) :
      Progress w leaf (h :: inner) (n + Hop.ahead x)
  /-- the outermost hop has the map, which holds what the leaf answered -/
  | after {h : Hop} {inner : List Hop} {x : Token ι} {m : MapRef} {a : Settled} (only : w.Only h.target x)
      (stands : h.After w m x) (result : w.result? leaf = some a)
      (entries : w.memory.heap.entries m = answered h.path a) (inside : ∀ i ∈ inner, w.Only i.target .done) :
      Progress w leaf (h :: inner) (Hop.ahead x)

/-- A map is the answer of one of some hops, or is to be it. -/
def Holds (w : Web ι) (hops : List Hop) (m : MapRef) : Prop :=
  ∃ h ∈ hops, .settle h.target (.value (.map m)) ∈ w.chores ∨ w.result? h.target = some (.ok (.map m))

theorem Hop.After.holds {h : Hop} {m : MapRef} {x : Token ι} (stands : h.After w m x) (only : w.Only h.target x)
    {hops : List Hop} (among : h ∈ hops) : w.Holds hops m := by
  refine ⟨h, among, ?_⟩
  cases stands with
  | settling => exact .inl only.mem_chores
  | settled known => exact .inr known

/-- The maps of some hops are left alone. -/
def Spares (hops : List Hop) (w : Web ι) (memory : Memory ι) : Prop :=
  ∀ m, w.Holds hops m → memory.heap.entries m = w.memory.heap.entries m

namespace Progress

variable {leaf : PromiseRef} {hops : List Hop} {n : Nat}

/-- Others do not move the answer. -/
theorem pass (h : w.Progress leaf hops n) (lasting : w.Lasting w')
    (passes : ∀ i ∈ hops, ∀ x, w.Only i.target x → w'.Passes i.target x) (spares : w.Spares hops w'.memory) :
    w'.Progress leaf hops n := by
  induction h with
  | none => exact .none
  | @before h inner n x only stands more ih =>
    obtain ⟨y, only, stands, same⟩ := stands.pass lasting (passes h List.mem_cons_self x only)
    rw [← same]
    apply Progress.before only stands
    apply ih
    · intro i among
      exact passes i (List.mem_cons_of_mem _ among)
    · rintro m ⟨i, among, holds⟩
      exact spares m ⟨i, List.mem_cons_of_mem _ among, holds⟩
  | @after h inner x m a only stands result entries inside =>
    have same := spares m (stands.holds only List.mem_cons_self)
    obtain ⟨only, stands⟩ := stands.pass lasting (passes h List.mem_cons_self x only)
    refine .after only stands (lasting _ _ result) (same.trans entries) ?_
    intro i among
    obtain ⟨y, only, rfl | ⟨p, k, r, waits, -⟩⟩ := passes i (List.mem_cons_of_mem _ among) .done (inside i among)
    · exact only
    · cases waits

/-- The outermost of some hops is brought to the promise of those inside it. -/
theorem observe {h : Hop} {inner : List Hop} (held : w.Only h.target .held) (made : w.Made (outermost leaf inner))
    (more : w.Progress leaf inner n) (distinct : h.target ∉ inner.map Hop.target) :
    (w.observe (outermost leaf inner) h.observer).Progress leaf (h :: inner) (n + 2) := by
  have lasting : w.Lasting (w.observe (outermost leaf inner) h.observer) :=
    lasting_perform w (.observe (outermost leaf inner) h.observer)
  have more : (w.observe (outermost leaf inner) h.observer).Progress leaf inner n := by
    refine more.pass lasting ?_ fun m _ ↦ by rw [memory_observe]
    intro i among x only
    have other : (h.observer : Observer ι).target? ≠ some i.target := by
      intro same
      exact distinct (List.mem_map.mpr ⟨i, among, (Option.some.inj same).symm⟩)
    exact (only.observe_of_ne other).passes
  rcases held.observe_self made (k := h.observer) rfl with waits | ⟨r, result, called⟩
  · exact .before waits .waiting more
  · exact .before called (.called r (lasting _ _ result)) more

/-- The outermost of some hops reacts to the answer of those inside it. -/
theorem react {h : Hop} {inner : List Hop} {r : Settled} (held : w.Only h.target .held)
    (result : w.result? (outermost leaf inner) = some r) (more : w.Progress leaf inner n)
    (nested : Nested (h :: inner)) (distinct : h.target ∉ inner.map Hop.target)
    (untold : inner = [] → w.memory.heap.Untold r) :
    (w.react h.observer r).Progress leaf (h :: inner) (n + 1) := by
  set answer := w.memory.heap.groupAnswer h.member h.path r
  have grows : w.Grows [.settle h.target (.value answer.1)] [] [] (w.react h.observer r) :=
    grows_add w (w.memory.onHeap (·.groupAnswer h.member h.path r)).2 _
  have only : (w.react h.observer r).Only h.target (.chore (.settle h.target (.value answer.1))) :=
    held.grows_held grows rfl (by simp)
  have made {m : MapRef} (map : answer.1 = .map m) {a : Settled} (leaves : w.result? leaf = some a)
      (entries : answer.2.entries m = answered h.path a) (inside : ∀ i ∈ inner, w.Only i.target .done) :
      (w.react h.observer r).Progress leaf (h :: inner) 1 := by
    rw [map] at only
    refine .after only .settling ((grows.result? leaf).trans leaves) entries ?_
    intro i among
    apply (inside i among).grows_of_ne grows
    rw [List.forall_mem_singleton]
    intro same
    exact distinct (List.mem_map.mpr ⟨i, among, (Option.some.inj same).symm⟩)
  cases more with
  | none =>
    obtain ⟨m, map, entries⟩ := Heap.groupAnswer_of_untold (untold rfl) h.member h.path
    exact made map result entries nofun
  | @before i inner n x before stands more =>
    have free := stands.result?_eq_none before
    exact absurd (free.symm.trans result) nofun
  | @after i inner x m a after stands leaves entries inside =>
    cases stands with
    | settling => exact absurd ((after.result?_eq_none nofun).symm.trans result) nofun
    | settled known =>
      obtain rfl : .ok (.map m) = r := Option.some.inj (known.symm.trans result)
      obtain ⟨map, prefixed⟩ := Heap.groupAnswer_of_answered entries h.member h.path
      have path := (List.isChain_cons_cons.mp nested).1
      rw [← path] at prefixed
      exact made map leaves prefixed (List.forall_mem_cons.mpr ⟨after, inside⟩)

/-- A chore of a hop brings the answer further. -/
theorem perform (h : w.Progress leaf hops n) (known : w.Known) (nested : Nested hops)
    (distinct : (hops.map Hop.target).Nodup) {place : Nat} {c : Chore ι}
    (found : w.chores[place]? = some c) (aims : ∃ i ∈ hops, c.target? = some i.target)
    (untold : ∀ i r, hops.getLast? = some i → c = .react i.observer r → w.memory.heap.Untold r) :
    ∃ fewer, n = fewer + 1 ∧ ((w.take place).perform c).Progress leaf hops fewer := by
  induction h with
  | none =>
    obtain ⟨i, among, -⟩ := aims
    cases among
  | @before h inner n x only stands more ih =>
    rw [List.map_cons, List.nodup_cons] at distinct
    have apart {i : Hop} (among : i ∈ inner) : i.target ≠ h.target := by
      intro same
      exact distinct.1 (same ▸ List.mem_map_of_mem among)
    by_cases own : c.target? = some h.target
    · obtain ⟨rfl, held⟩ := only.take_self found own
      have others {i : Hop} (among : i ∈ inner) {x : Token ι} (only : w.Only i.target x) :
          (w.take place).Only i.target x := by
        apply only.take_of_ne found
        rw [own]
        exact fun same ↦ apart among (Option.some.inj same).symm
      have more : (w.take place).Progress leaf inner n :=
        more.pass (fun _ _ ↦ id) (fun i among x only ↦ (others among only).passes) fun _ _ ↦ rfl
      cases stands with
      | coming =>
        have made : w.Made (outermost leaf inner) :=
          known.chores _ (List.mem_of_getElem? found) _ List.mem_cons_self
        exact ⟨_, rfl, Progress.observe held made more distinct.1⟩
      | called r result =>
        refine ⟨_, rfl, Progress.react held result more nested distinct.1 ?_⟩
        rintro rfl
        exact untold h r rfl rfl
    · have passed := (only.take_of_ne found own).passes_perform own
      obtain ⟨y, only, stands, same⟩ := stands.pass (lasting_perform (w.take place) c) passed
      have inside : ∃ i ∈ inner, c.target? = some i.target := by
        obtain ⟨i, among, aimed⟩ := aims
        rcases List.mem_cons.mp among with rfl | among
        · exact absurd aimed own
        · exact ⟨i, among, aimed⟩
      have innermost : ∀ i r, inner.getLast? = some i → c = .react i.observer r → w.memory.heap.Untold r := by
        intro i r last
        apply untold i r
        rw [List.getLast?_cons, last, Option.getD_some]
      obtain ⟨fewer, rfl, later⟩ := ih (List.isChain_cons.mp nested).2 distinct.2 inside innermost
      rw [← same]
      exact ⟨fewer + Hop.ahead y, Nat.add_right_comm .., .before only stands later⟩
  | @after h inner x m a only stands result entries inside =>
    by_cases own : c.target? = some h.target
    · obtain ⟨rfl, held⟩ := only.take_self found own
      cases stands with
      | settling =>
        obtain ⟨done, settled⟩ := held.settle_self (.ok (.map m))
        refine ⟨0, rfl, .after (done.report _) (.settled settled) (result?_settle_of_some _ result _) entries ?_⟩
        intro i among
        rw [List.map_cons, List.nodup_cons] at distinct
        have apart : i.target ≠ h.target := fun same ↦ distinct.1 (same ▸ List.mem_map_of_mem among)
        have taken := (inside i among).take_of_ne found (fun same ↦ apart (Option.some.inj same).symm)
        exact (taken.settle_of_ne apart _).report _
    · obtain ⟨i, among, same⟩ := aims
      rcases List.mem_cons.mp among with rfl | among
      · exact absurd same own
      · obtain ⟨done, -⟩ := (inside i among).take_self found same
        cases done

/-- If the outermost hop has an answer, it is a map that holds what the leaf answered and the whole path. -/
theorem resolved {h : Hop} {inner : List Hop} (progress : w.Progress leaf (h :: inner) n) {r : Settled}
    (result : w.result? h.target = some r) :
    ∃ a m, w.result? leaf = some a ∧ r = .ok (.map m) ∧ w.memory.heap.entries m = answered h.path a := by
  cases progress with
  | before only stands more => exact absurd ((stands.result?_eq_none only).symm.trans result) nofun
  | @after _ _ _ m a only stands leaves entries inside =>
    cases stands with
    | settling => exact absurd ((only.result?_eq_none nofun).symm.trans result) nofun
    | settled known => exact ⟨a, m, leaves, (Option.some.inj (known.symm.trans result)).symm, entries⟩

/-- If the leaf has answered, the outermost hop has an answer, or there is something to be done for one of the
hops. -/
theorem isSome_or (h : w.Progress leaf hops n) (settled : (w.result? leaf).isSome) :
    (w.result? (outermost leaf hops)).isSome ∨ ∃ c ∈ w.chores, ∃ i ∈ hops, c.target? = some i.target := by
  induction h with
  | none => exact .inl settled
  | @before h inner n x only stands more ih =>
    cases stands with
    | coming => exact .inr ⟨_, only.mem_chores, h, List.mem_cons_self, rfl⟩
    | called r known => exact .inr ⟨_, only.mem_chores, h, List.mem_cons_self, rfl⟩
    | waiting =>
      rw [only.free] at ih
      rcases ih with none | ⟨c, among, i, inside, aims⟩
      · cases none
      · exact .inr ⟨c, among, i, List.mem_cons_of_mem _ inside, aims⟩
  | @after h inner x m a only stands result entries inside =>
    cases stands with
    | settling => exact .inr ⟨_, only.mem_chores, h, List.mem_cons_self, rfl⟩
    | settled known =>
      left
      rw [outermost, known]
      rfl

end Progress

/-! ## Courses -/

/-- An event is not one of some hops: no chore of theirs, and no call that decides one of their promises. -/
structure Aside (hops : List Hop) (w : Web ι) (e : Event ι) : Prop where
  /-- no call decides the promise of a hop -/
  decides : ∀ c, e = .call c → ∀ h ∈ hops, c.decides? ≠ some h.target
  /-- no chore is to settle the promise of a hop -/
  settles : ∀ place c, e = .work place → w.chores[place]? = some c → ∀ h ∈ hops, c.target? ≠ some h.target

/-- Things happen one after the other; the number counts the chores of some hops among them.  Nobody else
decides their promises or changes the map that they answer with, and what the leaf answers is no map that
tells its way. -/
inductive Course (hops : List Hop) (w : Web ι) : Nat → Web ι → Prop where
  /-- nothing happens -/
  | refl : Course hops w 0 w
  /-- a chore of a hop is done -/
  | work {n : Nat} {w' : Web ι} (course : Course hops w n w') {place : Nat} {c : Chore ι}
      (found : w'.chores[place]? = some c) (aims : ∃ h ∈ hops, c.target? = some h.target)
      (untold : ∀ h r, hops.getLast? = some h → c = .react h.observer r → w'.memory.heap.Untold r) :
      Course hops w (n + 1) ((w'.take place).perform c)
  /-- something else happens -/
  | step {n : Nat} {w' w'' : Web ι} (course : Course hops w n w') {e : Event ι} (step : w'.step? e = some w'')
      (aside : w'.Aside hops e) (spares : w'.Spares hops w''.memory) : Course hops w n w''
  /-- functions of actors and responders use the memory -/
  | share {n : Nat} {w' : Web ι} (course : Course hops w n w') {memory : Memory ι}
      (spares : w'.Spares hops memory) : Course hops w n { w' with memory }

section Courses

variable {leaf : PromiseRef} {hops : List Hop} {n : Nat}

/-- What is aside does not move the answer. -/
theorem Progress.step (h : w.Progress leaf hops n) {e : Event ι} (step : w.step? e = some w')
    (aside : w.Aside hops e) (spares : w.Spares hops w'.memory) : w'.Progress leaf hops n := by
  refine h.pass (lasting_step step) ?_ spares
  intro i among x only
  cases e with
  | call c =>
    cases step
    exact (only.call_of_ne (aside.decides c rfl i among)).passes
  | work place =>
    obtain ⟨c, found, rfl⟩ := Option.map_eq_some_iff.mp step
    have apart := aside.settles place c rfl found i among
    exact (only.take_of_ne found apart).passes_perform apart

theorem Known.share (known : w.Known) (memory : Memory ι) : { w with memory }.Known :=
  ⟨known.chores, known.waiting, known.links, known.invocations⟩

theorem Only.share {x : Token ι} (only : w.Only t x) (memory : Memory ι) : { w with memory }.Only t x :=
  ⟨only.made, only.chores, only.waiting, only.settled⟩

theorem step?_work {place : Nat} {c : Chore ι} (found : w.chores[place]? = some c) :
    w.step? (.work place) = some ((w.take place).perform c) := by
  rw [step?, found]
  rfl

theorem Course.lasting (course : Course hops w n w') : w.Lasting w' := by
  induction course with
  | refl => exact fun _ _ ↦ id
  | work course found aims untold ih => exact fun p r known ↦ lasting_step (step?_work found) p r (ih p r known)
  | step course step aside spares ih => exact fun p r known ↦ lasting_step step p r (ih p r known)
  | share course spares ih => exact ih

theorem Course.known (course : Course hops w n w') (known : w.Known) : w'.Known := by
  induction course with
  | refl => exact known
  | work course found aims untold ih => exact ih.step (step?_work found)
  | step course step aside spares ih => exact ih.step step
  | share course spares ih => exact ih.share _

/-- Whatever happens, each chore of a hop brings the answer further, and nothing else moves it. -/
theorem Course.progress (course : Course hops w n w') {ahead : Nat} (h : w.Progress leaf hops ahead)
    (known : w.Known) (nested : Nested hops) (distinct : (hops.map Hop.target).Nodup) :
    ∃ left, ahead = left + n ∧ w'.Progress leaf hops left := by
  induction course with
  | refl => exact ⟨ahead, rfl, h⟩
  | work course found aims untold ih =>
    obtain ⟨left, rfl, before⟩ := ih
    obtain ⟨fewer, rfl, after⟩ := before.perform (course.known known) nested distinct found aims untold
    exact ⟨fewer, by omega, after⟩
  | step course step aside spares ih =>
    obtain ⟨left, exact, before⟩ := ih
    exact ⟨left, exact, before.step step aside spares⟩
  | share course spares ih =>
    obtain ⟨left, exact, before⟩ := ih
    exact ⟨left, exact, before.pass (fun _ _ ↦ id) (fun i among x only ↦ (only.share _).passes) spares⟩

end Courses

/-! ## How it begins -/

/-- The observers of some hops are brought to the promises inside, the innermost first. -/
def attach (leaf : PromiseRef) : List Hop → Web ι → Web ι
  | [], w => w
  | h :: inner, w => (attach leaf inner w).observe (outermost leaf inner) h.observer

section Attach

variable {leaf : PromiseRef} {hops : List Hop}

theorem attach_of_ne {x : Token ι} (only : w.Only t x) (apart : t ∉ hops.map Hop.target) :
    (attach leaf hops w).Only t x := by
  induction hops with
  | nil => exact only
  | cons h inner ih =>
    rw [List.map_cons, List.mem_cons, not_or] at apart
    apply (ih apart.2).observe_of_ne
    intro same
    exact apart.1 (Option.some.inj same).symm

theorem lasting_attach (w : Web ι) : w.Lasting (attach leaf hops w) := by
  induction hops with
  | nil => exact fun _ _ ↦ id
  | cons h inner ih => exact fun p r known ↦ (result?_observe _ _).trans (ih p r known)

theorem made_attach {q : PromiseRef} (made : w.Made q) : (attach leaf hops w).Made q := by
  induction hops with
  | nil => exact made
  | cons h inner ih => exact made_observe ih _ _

theorem known_attach (known : w.Known) (made : ∀ h ∈ hops, w.Made h.target) : (attach leaf hops w).Known := by
  induction hops with
  | nil => exact known
  | cons h inner ih =>
    apply (ih fun i among ↦ made i (List.mem_cons_of_mem _ among)).observe
    intro t aims
    obtain rfl := Option.some.inj aims
    exact made_attach (made h List.mem_cons_self)

/-- When the observers are brought, and nobody else is about the promises of the hops, then the answer of the
leaf is yet to go outwards, and each hop has two chores ahead. -/
theorem progress_attach (held : ∀ h ∈ hops, w.Only h.target .held) (made : w.Made leaf)
    (distinct : (hops.map Hop.target).Nodup) : (attach leaf hops w).Progress leaf hops (2 * hops.length) := by
  induction hops with
  | nil => exact .none
  | cons h inner ih =>
    rw [List.map_cons, List.nodup_cons] at distinct
    have there : w.Made (outermost leaf inner) := by
      cases inner with
      | nil => exact made
      | cons i inner => exact (held i (List.mem_cons_of_mem _ List.mem_cons_self)).made
    have more := ih (fun i among ↦ held i (List.mem_cons_of_mem _ among)) distinct.2
    exact .observe (attach_of_ne (held h List.mem_cons_self) distinct.1) (made_attach there) more distinct.1

end Attach

end Web

end Troupe
