import Troupe.Proofs.System.Route

/-!
# Nested groups report the whole path

What a system has to do with its promises is a `Web` (`System.web`), in which everything that happens next
is one chore or one call after the other.  A message that was sent to a group leaves the groups on its way
waiting for each other (`System.Way.progress`), and so, whatever happens next, the answer tells the whole
path (`System.send_nested`).
-/

namespace Troupe

open Web

variable {ι σ : Type}

/-! ## Promises that nobody knows yet -/

namespace Web

variable {w : Web ι} {memory : Memory ι} {more : List (Promise (Observer ι))}

/-- Promises are made, and the memory changes. -/
def extended (w : Web ι) (memory : Memory ι) (more : List (Promise (Observer ι))) : Web ι :=
  { w with memory, promises := w.promises ++ more.toArray }

theorem extended_extended (w : Web ι) (memory memory' : Memory ι) (more more' : List (Promise (Observer ι))) :
    (w.extended memory more).extended memory' more' = w.extended memory' (more ++ more') := by
  simp [extended, Array.append_assoc]

theorem made_extended {p : PromiseRef} (made : w.Made p) : (w.extended memory more).Made p := by
  rw [Made, extended, Array.size_append]
  exact Nat.lt_add_right _ made

theorem promise_extended_of_made {p : PromiseRef} (made : w.Made p) :
    (w.extended memory more).promise p = w.promise p := by
  rw [promise, extended, Array.getD_eq_getD_getElem?, Array.getElem?_append_left made, promise,
    Array.getD_eq_getD_getElem?]

theorem promise_extended_of_new {p : PromiseRef} (new : ¬ w.Made p) :
    (w.extended memory more).promise p = more[p.index - w.promises.size]?.getD .fresh := by
  rw [promise, extended, Array.getD_eq_getD_getElem?, Array.getElem?_append_right (Nat.le_of_not_lt new),
    List.getElem?_toArray]

theorem promise_extended_next (w : Web ι) (q : Promise (Observer ι)) :
    (w.extended memory [q]).promise w.next = q := by
  rw [promise_extended_of_new (p := w.next) (Nat.lt_irrefl _), next, Nat.sub_self]
  rfl

theorem made_extended_next (w : Web ι) (q : Promise (Observer ι)) : (w.extended memory [q]).Made w.next := by
  change w.promises.size < (w.promises ++ [q].toArray).size
  rw [Array.size_append]
  exact Nat.lt_succ_self _

/-- Nobody waits for what was made just now. -/
theorem waiting_extended (free : ∀ q ∈ more, q.waiting = []) (p : PromiseRef) :
    ((w.extended memory more).promise p).waiting = (w.promise p).waiting := by
  by_cases made : w.Made p
  · rw [promise_extended_of_made made]
  · rw [waiting_of_not_made w made, promise_extended_of_new made]
    cases found : more[p.index - w.promises.size]? with
    | none => rfl
    | some q => exact free q (List.mem_of_getElem? found)

theorem known_extended (known : w.Known) (free : ∀ q ∈ more, q.waiting = []) :
    (w.extended memory more).Known where
  chores c among p mentioned := made_extended (known.chores c among p mentioned)
  waiting p k waits t aims := by
    rw [waiting_extended free] at waits
    exact made_extended (known.waiting p k waits t aims)
  links l among := made_extended (known.links l among)
  invocations i among := made_extended (known.invocations i among)

/-- Nobody is about a promise that was made just now. -/
theorem held_extended (known : w.Known) (free : ∀ q ∈ more, q.waiting = []) {t : PromiseRef}
    (new : ¬ w.Made t) (place : more[t.index - w.promises.size]? = some .fresh) :
    (w.extended memory more).Only t .held where
  made := by
    obtain ⟨within, -⟩ := List.getElem?_eq_some_iff.mp place
    have behind : w.promises.size ≤ t.index := Nat.le_of_not_lt new
    change t.index < (w.promises ++ more.toArray).size
    rw [Array.size_append]
    exact (Nat.sub_lt_iff_lt_add' behind).mp within
  chores := by
    apply aiming_eq_nil
    intro c among aims
    exact new (known.chores c among t (Chore.mem_mentions aims))
  waiting p := by
    have nobody : aimed t (w.promise p).waiting = [] := by
      rw [aimed, List.filter_eq_nil_iff]
      intro k waits aims
      exact new (known.waiting p k waits t (of_decide_eq_true aims))
    rw [waiting_extended free, nobody]
    rfl
  settled := by
    rw [result?, promise_extended_of_new new, place]
    constructor <;> rintro ⟨⟩

end Web

/-- A task that gives an observer its result. -/
def Task.chore? : Task ι σ → Option (Chore ι)
  | .react k r => some (.react k r)
  | .errand _ | .job _ _ | .settle _ _ _ => none

namespace System

variable {sys : System ι σ}

/-! ## What a system has to do with its promises -/

/-- The promises of a system, and the tasks that give observers their results. -/
def web (sys : System ι σ) : Web ι :=
  ⟨sys.memory, sys.promises,
    (sys.scheduler.delayed.map Delayed.work ++ sys.scheduler.ready).filterMap Task.chore?, [], [], []⟩

theorem web_observe (p : PromiseRef) (k : Observer ι) : (sys.observe p k).web = sys.web.observe p k := by
  have same : sys.web.promise p = sys.promise p := rfl
  rw [observe, Web.observe, same]
  rcases (sys.promise p).observe k with ⟨_ | r, after⟩
  · rfl
  · simp [web, schedule, Scheduler.schedule, Web.add, Task.chore?]

theorem web_attach (leaf : PromiseRef) (hops : List Hop) :
    (attach leaf hops sys).web = Web.attach leaf hops sys.web := by
  induction hops with
  | nil => rfl
  | cons h inner ih => rw [attach, web_observe, ih, Web.attach]

theorem web_newPromise : sys.newPromise.2.web = sys.web.extended sys.memory [.fresh] := by
  simp [web, newPromise, Web.extended]

theorem web_promised (n : Nat) :
    (promised n sys).web = sys.web.extended sys.memory (.replicate n .fresh) := by
  induction n generalizing sys with
  | zero => simp [promised, Web.extended, web]
  | succ n ih =>
    rw [promised, ih, web_newPromise, Web.extended_extended]
    rfl

theorem web_settledPromise (memory : Memory ι) (o : Outcome Value) :
    ({ sys with memory }.settledPromise o).2.web = sys.web.extended memory [.settled o.settled] := by
  rw [settledPromise_eq]
  simp [web, Web.extended]

/-- Admitting jobs does nothing to promises. -/
theorem web_launch (i : Nat) (admitted : List (Job (Call (Memory ι) σ))) :
    (sys.launch i admitted).web = sys.web := by
  simp [web, launch, Scheduler.scheduleAll, Task.chore?]

/-- At the end of its way a message makes one promise, which nobody waits for, and which has an error if the
message was refused. -/
theorem Arrives.web_eq {left : String} {arguments : List Value} {last : Mailbox} {e : Option DispatchError}
    {leaf : PromiseRef} {after : System ι σ} (arrives : sys.Arrives left arguments last e (leaf, after)) :
    leaf = sys.web.next ∧ ∃ memory q, q.waiting = [] ∧ after.web = sys.web.extended memory [q] ∧
      ∀ failure, e = some failure → q = .settled (.error failure.message) := by
  generalize same : (leaf, after) = result at arrives
  cases arrives with
  | actor i =>
    cases admits : sys.newPromise.2.actors[i]?.bind (·.send? left arguments sys.newPromise.1) with
    | none =>
      simp only [call, admits] at same
      cases same
      refine ⟨rfl, sys.memory, _, rfl, web_settledPromise sys.memory _, ?_⟩
      rintro failure ⟨⟩
    | some admitted =>
      simp only [call, admits] at same
      cases same
      refine ⟨rfl, sys.memory, .fresh, rfl, ?_, ?_⟩
      · rw [← web_newPromise, web_launch]
        rfl
      · rintro failure ⟨⟩
  | responder i =>
    rw [respond] at same
    cases known : sys.responders[i]? with
    | none =>
      rw [known] at same
      cases same
      refine ⟨rfl, sys.memory, .fresh, rfl, web_newPromise, ?_⟩
      rintro failure ⟨⟩
    | some f =>
      rw [known] at same
      cases same
      refine ⟨rfl, _, _, rfl, web_settledPromise _ _, ?_⟩
      rintro failure ⟨⟩
  | refused i failure =>
    cases same
    refine ⟨rfl, sys.memory, _, rfl, web_settledPromise sys.memory _, ?_⟩
    rintro failure ⟨⟩
    rfl

/-! ## The groups wait for each other -/

section

variable {mailbox last : Mailbox} {path left : String} {hops : List Hop} {e : Option DispatchError}
  {arguments : List Value} {leaf : PromiseRef} {after : System ι σ}

/-- When a message has arrived, all groups on its way are yet to answer, with two chores ahead each, and a
refused message is answered. -/
theorem Way.progress (known : sys.web.Known)
    (way : Way sys.members sys.promises.size mailbox path hops last left)
    (arrives : (promised hops.length sys).Arrives left arguments last e (leaf, after)) :
    (attach leaf hops after).web.Known ∧ (attach leaf hops after).web.Progress leaf hops (2 * hops.length) ∧
      ∀ failure, e = some failure → (attach leaf hops after).web.result? leaf = some (.error failure.message) := by
  obtain ⟨rfl, memory, q, nobody, same, refused⟩ := arrives.web_eq
  set more : List (Promise (Observer ι)) := List.replicate hops.length .fresh ++ [q] with made
  have web : after.web = sys.web.extended memory more := by
    rw [same, web_promised, Web.extended_extended]
  have free : ∀ p ∈ more, p.waiting = [] := by
    intro p among
    rcases List.mem_append.mp among with fresh | final
    · rw [List.eq_of_mem_replicate fresh]
      rfl
    · rw [List.mem_singleton.mp final, nobody]
  have held : ∀ h ∈ hops, after.web.Only h.target .held := by
    intro h among
    obtain ⟨i, small, target⟩ := way.exists_target_eq among
    have new : ¬ sys.web.Made h.target := by
      rw [target]
      exact Nat.not_lt.mpr (Nat.le_add_right ..)
    have place : more[h.target.index - sys.web.promises.size]? = some .fresh := by
      rw [target]
      change more[sys.promises.size + i - sys.promises.size]? = _
      rw [Nat.add_sub_cancel_left, made, List.getElem?_append_left (by rwa [List.length_replicate]),
        List.getElem?_replicate_of_lt small]
    rw [web]
    exact held_extended known free new place
  have there : after.web.promise (promised hops.length sys).web.next = q := by
    rw [same, promise_extended_next]
  have leaf : after.web.Made (promised hops.length sys).web.next := by
    rw [same]
    exact made_extended_next _ q
  have knows : after.web.Known := by
    rw [web]
    exact known_extended known free
  rw [web_attach]
  refine ⟨known_attach knows fun h among ↦ (held h among).made, progress_attach held leaf way.nodup_targets, ?_⟩
  intro failure because
  apply lasting_attach
  rw [Web.result?, there, refused failure because]
  rfl

end

/-! ## The answer tells the whole path -/

/-- How the groups on the way of a message stand to the answer of the receiver at its end. -/
structure Reports (w : Web ι) (path : String) (hops : List Hop) (leaf : PromiseRef) (e : Option DispatchError) :
    Prop where
  /-- if the message was refused, the answer is the failure -/
  refused : ∀ failure, e = some failure → w.result? leaf = some (.error failure.message)
  /-- the outermost group answers nothing but a map that holds the whole path and the answer of the receiver
  -/
  answers : ∀ r, w.result? (outermost leaf hops) = some r →
    ∃ a m, w.result? leaf = some a ∧ r = .ok (.map m) ∧ w.memory.heap.entries m = answered path a
  /-- once the receiver has answered, the outermost group has too, or there is something to be done for a
  group -/
  moves : (w.result? leaf).isSome → (w.result? (outermost leaf hops)).isSome ∨
    ∃ c ∈ w.chores, ∃ h ∈ hops, c.target? = some h.target

/-- A message to a group that finds the member goes along a way of groups, which ends, and which takes a
slash of the path for each of them.  The receiver at its end gets the rest of the path, whatever is in it,
as the name of the operation, or refuses the message.  Whatever happens from then on, the groups do no more
than two chores each, and the outermost one reports the answer of the receiver, or the failure if the
message was refused, with the whole path. -/
theorem send_nested {group : Nat} {name rest : String} {next : Mailbox} (known : sys.web.Known)
    (plain : '/' ∉ name.toList) (route : Entries.find? name (sys.members group) = some next)
    (arguments : List Value) :
    (∃ hops last left e, Way sys.members sys.promises.size (.group group) (Path.join name rest) hops last left ∧
      Ends sys.members last left e) ∧
    ∀ hops last left e, Way sys.members sys.promises.size (.group group) (Path.join name rest) hops last left →
      Ends sys.members last left e →
      0 < hops.length ∧ hops.length + left.toList.count '/' = (Path.join name rest).toList.count '/' ∧
      Path.join name rest = (hops.map Hop.member).foldr Path.join left ∧
      ∃ leaf after, (promised hops.length sys).Arrives left arguments last e (leaf, after) ∧
        sys.send ⟨.group group, Path.join name rest, arguments⟩ =
          (outermost leaf hops, attach leaf hops after) ∧
        ∀ n w, Course hops (attach leaf hops after).web n w →
          n ≤ 2 * hops.length ∧ Reports w (Path.join name rest) hops leaf e := by
  refine ⟨exists_way .., ?_⟩
  intro hops last left e way ends
  have goesOn : hops ≠ [] := way.ne_nil ends plain route
  have arrives : (promised hops.length sys).Arrives left arguments last e
      ((promised hops.length sys).send ⟨last, left, arguments⟩) :=
    Ends.arrives (by rwa [members_promised]) arguments
  obtain ⟨⟨leaf, after⟩, sent⟩ : ∃ result, (promised hops.length sys).send ⟨last, left, arguments⟩ = result :=
    ⟨_, rfl⟩
  rw [sent] at arrives
  refine ⟨List.length_pos_iff.mpr goesOn, way.length_add_count, way.path_eq, leaf, after, arrives,
    way.send sent, ?_⟩
  intro n w course
  obtain ⟨knows, progress, refused⟩ := way.progress known arrives
  obtain ⟨ahead, count, kept⟩ := course.progress progress knows way.nested way.nodup_targets
  constructor
  · rw [count]
    exact Nat.le_add_left n ahead
  constructor
  · exact fun failure because ↦ course.lasting _ _ (refused failure because)
  · intro r result
    obtain ⟨h, inner, rfl⟩ := List.exists_cons_of_ne_nil goesOn
    rw [← way.head_path h rfl]
    exact kept.resolved result
  · exact kept.isSome_or

/-- A group that has itself as a member, and a responder that repeats the name of the operation. -/
def ring : System Unit Unit :=
  { ofWorkers 1 with
    groups := #[[("leaf", .responder 0), ("self", .group 0)]]
    responders := #[fun name _ memory ↦ (.value (.string name), memory)] }

/-- The groups on the way of a message that the group sends to itself first. -/
def ringHops : List Hop :=
  [⟨⟨0⟩, "self", Path.join "self" (Path.join "leaf" "op/x")⟩, ⟨⟨1⟩, "leaf", Path.join "leaf" "op/x"⟩]

/-- The group is asked through itself, and the path holds a slash more than there are groups on the way. -/
theorem send_nested_ring :
    ∃ leaf after w m, ring.send ⟨.group 0, "self/leaf/op/x", []⟩ = (⟨0⟩, after) ∧
      Course ringHops after.web 4 w ∧ w.chores = [] ∧ w.result? leaf = some (.ok (.string "op/x")) ∧
      w.result? ⟨0⟩ = some (.ok (.map m)) ∧
      w.memory.heap.entries m = answered "self/leaf/op/x" (.ok (.string "op/x")) := by
  have known : ring.web.Known := known_ofMemory _
  have whole : Path.join "self" (Path.join "leaf" "op/x") = "self/leaf/op/x" := by decide
  have plain : '/' ∉ "self".toList := by decide
  have route : Entries.find? "self" (ring.members 0) = some (.group 0) := rfl
  have way : Way ring.members 0 (.group 0) (Path.join "self" (Path.join "leaf" "op/x")) ringHops (.responder 0)
      "op/x" :=
    .through plain route (.through (by decide) rfl (.last 2 _ _))
  obtain ⟨-, along⟩ := send_nested known plain route []
  obtain ⟨-, -, -, leaf, after, arrives, sent, reports⟩ := along _ _ _ _ way (.responder 0 "op/x")
  rw [whole] at sent reports
  generalize same : (leaf, after) = result at arrives
  cases arrives
  cases same
  have course : ∃ w, Course ringHops (attach ⟨2⟩ ringHops ((promised 2 ring).respond 0 "op/x" []).2).web 4 w ∧
      w.chores = [] ∧ w.result? ⟨2⟩ = some (.ok (.string "op/x")) ∧ (w.result? ⟨0⟩).isSome := by
    have inner {c : Chore Unit} (aims : c.target? = some ⟨1⟩) : ∃ h ∈ ringHops, c.target? = some h.target :=
      ⟨_, .tail _ (.head _), aims⟩
    have outer {c : Chore Unit} (aims : c.target? = some ⟨0⟩) : ∃ h ∈ ringHops, c.target? = some h.target :=
      ⟨_, .head _, aims⟩
    have first {w : Web Unit} {c : Chore Unit} (only : w.chores = [c]) : w.chores[0]? = some c :=
      congrArg (·[0]?) only
    refine ⟨_, (((Course.refl.work (first rfl) (inner rfl) ?_).work (first rfl) (inner rfl) ?_).work (first rfl)
      (outer rfl) ?_).work (first rfl) (outer rfl) ?_, rfl, rfl, rfl⟩
    -- The leaf answers a text, and the other chores are none of the innermost group that gets an answer.
    · intro h r _ same m told
      obtain ⟨-, rfl⟩ := Chore.react.inj same
      cases told
    · exact nofun
    · intro h r last same
      cases last
      cases same
    · exact nofun
  obtain ⟨w, course, done, answer, settled⟩ := course
  obtain ⟨r, result⟩ := Option.isSome_iff_exists.mp settled
  obtain ⟨a, m, leafs, rfl, entries⟩ := (reports 4 w course).2.answers r result
  obtain rfl := Option.some.inj (leafs.symm.trans answer)
  exact ⟨_, _, w, m, sent, course, done, answer, result, entries⟩

end System

end Troupe
