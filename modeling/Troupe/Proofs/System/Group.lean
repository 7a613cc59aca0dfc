import Troupe.Proofs.System.Threads
import Troupe.Proofs.Value.Change

/-!
# What a group does to an answer

A group answers with what its member answered.  Most answers it wraps: it makes a map of its own, and leaves
everything else as it was.  An answer that is a map and tells its way already gets the member's name put in
front of that way, in the map itself.  So the map that is changed is the one that the member holds, and that
all those hold who got it from the member before (`Heap.change_groupAnswer`, `Heap.groupAnswer_told`).

One who consults a group again and again, of which a member answers at once and with the same map each time,
finds the way in that map longer each time, in the earlier answers too (`System.consults_prefixed`).
-/

namespace Troupe

namespace Path

theorem split?_append {member : List Char} (plain : '/' ∉ member) (rest : List Char) :
    split? (member ++ '/' :: rest) = some (member, rest) := by
  induction member with
  | nil => simp [split?]
  | cons c cs ih =>
    rw [List.mem_cons, not_or] at plain
    simp [split?, Ne.symm plain.1, ih plain.2]

end Path

/-! ## Answers -/

/-- A way with the name of a member in front of it, some number of times. -/
def prefixed (member source : String) : Nat → String
  | 0 => source
  | n + 1 => member ++ "/" ++ prefixed member source n

theorem prefixed_succ (member source : String) (n : Nat) :
    prefixed member (member ++ "/" ++ source) n = prefixed member source (n + 1) := by
  induction n with
  | zero => rfl
  | succ n ih => rw [prefixed, ih, ← prefixed]

namespace Heap

variable {h g : Heap} {m : MapRef} {w : Value} {r : Settled} {source : String}

theorem has_of_source? (told : h.source? m = some source) : h.Has (.map m) := by
  by_contra absent
  have dangling : h.maps.size ≤ m.index := Nat.le_of_not_lt absent
  simp [source?, entries, Array.getElem?_eq_none dangling] at told

theorem entries_put (has : h.Has (.map m)) (key : String) (v : Value) :
    (h.put m key v).entries m = Entries.insert key v (h.entries m) := by
  simp [put, entries, setEntries, Array.getElem?_setIfInBounds_self_of_lt has]

theorem SameAt.source?_eq (same : h.SameAt g (.map m)) : g.source? m = h.source? m := by
  have entries : g.entries m = h.entries m := same
  rw [source?, entries, ← source?]

/-- A group answers with the map of its member if that map tells its way. -/
theorem groupAnswer_of_source? (told : h.source? m = some source) (member path : String) :
    h.groupAnswer member path (.ok (.map m)) =
      (.map m, h.put m "source" (.string (member ++ "/" ++ source))) := by
  simp [groupAnswer, told]

/-- What a group does to the lists and maps is one change, which makes a new map, or goes to a map that its
member answered with and that tells its way. -/
theorem change_groupAnswer (h : Heap) (member path : String) (r : Settled) :
    ∃ c, (h.groupAnswer member path r).2 = h.change c ∧
      ∀ w, c.target? = some w → ∃ m, w = .map m ∧ r = .ok (.map m) ∧ h.source? m ≠ none := by
  have wraps : ∀ value error : Value, ∃ c, (h.wrapped path value error).2 = h.change c ∧
      ∀ w, c.target? = some w → ∃ m, w = .map m ∧ r = .ok (.map m) ∧ h.source? m ≠ none :=
    fun value error ↦
      ⟨.newMap [("error", error), ("source", .string path), ("value", value)], rfl, nofun⟩
  cases r with
  | error message => exact wraps _ _
  | ok v =>
    cases v with
    | map m =>
      cases told : h.source? m with
      | none =>
        rw [groupAnswer, told]
        exact wraps _ _
      | some source =>
        rw [groupAnswer_of_source? told]
        refine ⟨.put m "source" (.string (member ++ "/" ++ source)), rfl, ?_⟩
        intro w target
        obtain rfl : Value.map m = w := Option.some.inj target
        exact ⟨m, rfl, rfl, by simp [told]⟩
    | null | bool b | int i | uint u | float x | string s | list l => exact wraps _ _

theorem grows_groupAnswer (h : Heap) (member path : String) (r : Settled) :
    h.Grows (h.groupAnswer member path r).2 := by
  obtain ⟨c, change, -⟩ := h.change_groupAnswer member path r
  rw [change]
  exact (h.effect_change c).grows

/-- A group leaves every list and map as it was but for a map that its member answered with and that tells
its way. -/
theorem sameAt_groupAnswer (has : h.Has w) (member path : String)
    (other : ∀ m, w = .map m → r = .ok (.map m) → h.source? m = none) :
    h.SameAt (h.groupAnswer member path r).2 w := by
  obtain ⟨c, change, targets⟩ := h.change_groupAnswer member path r
  rw [change]
  apply (h.effect_change c).sameAt has
  intro target
  obtain ⟨m, same, answered, told⟩ := targets w target
  exact told (other m same answered)

/-- In such a map only the way is changed, and it gets longer by the member's name. -/
theorem groupAnswer_told (told : h.source? m = some source) (member path : String) :
    (h.groupAnswer member path (.ok (.map m))).2.source? m = some (member ++ "/" ++ source) ∧
      ∀ key, key ≠ "source" →
        Entries.find? key ((h.groupAnswer member path (.ok (.map m))).2.entries m) =
          Entries.find? key (h.entries m) := by
  rw [groupAnswer_of_source? told]
  have entries := entries_put (has_of_source? told) "source" (.string (member ++ "/" ++ source))
  constructor
  · rw [source?, entries, Entries.find?_insert_self]
    rfl
  · intro key apart
    rw [entries, Entries.find?_insert_of_ne apart]

end Heap

namespace System

variable {ι σ : Type} {sys : System ι σ}

/-! ## Promises that are settled at once -/

theorem setIfInBounds_push {β : Type} (xs : Array β) (x y : β) :
    (xs.push x).setIfInBounds xs.size y = xs.push y := by
  apply Array.toList_inj.mp
  simp [List.set_append_right]

theorem settle_of_fresh {p : PromiseRef} (fresh : sys.promise p = .fresh) (o : Outcome Value) :
    sys.settle p o =
      (true, { sys with promises := sys.promises.setIfInBounds p.index (.settled o.settled) }) := by
  rw [settle, fresh]
  simp [Promise.fresh, Promise.settle, Scheduler.scheduleAll]

theorem settledPromise_eq (sys : System ι σ) (o : Outcome Value) :
    sys.settledPromise o =
      (⟨sys.promises.size⟩, { sys with promises := sys.promises.push (.settled o.settled) }) := by
  rw [settledPromise]
  change (_, (sys.newPromise.2.settle sys.newPromise.1 o).2) = _
  rw [settle_of_fresh promise_newPromise]
  simp [newPromise, setIfInBounds_push]

theorem promise_settledPromise (sys : System ι σ) (o : Outcome Value) :
    (sys.settledPromise o).2.promise (sys.settledPromise o).1 = .settled o.settled := by
  rw [settledPromise_eq]
  simp [promise]

theorem observe_of_settled {p : PromiseRef} {r : Settled} (settled : sys.promise p = .settled r)
    (k : Observer ι) : sys.observe p k = sys.schedule (.react k r) := by
  rw [observe, settled]
  rfl

/-! ## Consulting a group -/

/-- A group sends a message on to the member that its path names, and waits for the answer. -/
theorem sendAlong_group {group : Nat} {path member rest : List Char} {next : Mailbox}
    (split : Path.split? path = some (member, rest))
    (route : Entries.find? (String.ofList member) (sys.members group) = some next)
    (arguments : List Value) :
    sys.sendAlong (.group group) path arguments =
      (sys.newPromise.1, (sys.newPromise.2.sendAlong next rest arguments).2.observe
        (sys.newPromise.2.sendAlong next rest arguments).1
        (.wrap sys.newPromise.1 (String.ofList member) (String.ofList path))) := by
  rw [sendAlong]
  split
  next none => cases split.symm.trans none
  next first others found =>
    cases split.symm.trans found
    rw [route]

/-- Whatever the member, its answer is wrapped for the promise of the group, and nothing else happens. -/
theorem react_wrap {target : PromiseRef} (fresh : sys.promise target = .fresh) (member path : String)
    (r : Settled) :
    sys.react (.wrap target member path) r =
      { sys with
        memory := { sys.memory with heap := (sys.memory.heap.groupAnswer member path r).2 }
        promises := sys.promises.setIfInBounds target.index
          (.settled (.ok (sys.memory.heap.groupAnswer member path r).1)) } := by
  rw [react]
  simp only [Memory.onHeap]
  rw [settle_of_fresh (by exact fresh)]
  rfl

/-- A responder answers every message with one outcome, and does nothing else. -/
def Repeats (sys : System ι σ) (responder : Nat) (o : Outcome Value) : Prop :=
  ∃ f, sys.responders[responder]? = some f ∧
    ∀ name arguments memory, f name arguments memory = (o, memory)

theorem Repeats.respond {responder : Nat} {o : Outcome Value} (h : sys.Repeats responder o)
    (name : String) (arguments : List Value) :
    sys.respond responder name arguments = sys.settledPromise o := by
  obtain ⟨f, known, constant⟩ := h
  rw [System.respond, known]
  simp only [constant]

/-- A system at rest, with a group one of whose members answers every message with one outcome. -/
structure Poised (sys : System ι σ) (group : Nat) (member : String) (o : Outcome Value) : Prop where
  /-- nothing is ready -/
  ready : sys.scheduler.ready = []
  /-- nothing is delayed -/
  delayed : sys.scheduler.delayed = []
  /-- the name of the member can stand in a path -/
  plain : '/' ∉ member.toList
  /-- the member answers with the outcome -/
  route : ∃ responder, Entries.find? member (sys.members group) = some (.responder responder) ∧
    sys.Repeats responder o

/-- A message for a member of a group. -/
def toMember (group : Nat) (member op : String) (arguments : List Value) : Message :=
  ⟨.group group, member ++ "/" ++ op, arguments⟩

/-- A message goes out, and one worker runs what it leads to. -/
def consult (sys : System ι σ) (m : Message) : PromiseRef × System ι σ :=
  let (p, sys) := sys.send m
  (p, sys.work?.getD sys)

/-- A message goes out some number of times, each time when the answer to the one before is there. -/
def consults (sys : System ι σ) (m : Message) : Nat → List PromiseRef × System ι σ
  | 0 => ([], sys)
  | n + 1 =>
    let (p, sys) := sys.consult m
    let (rest, sys) := sys.consults m n
    (p :: rest, sys)

section Consulting

variable {group : Nat} {member : String} {o : Outcome Value} {op : String} {arguments : List Value}

/-- The member answers at once, so the group's part is scheduled. -/
theorem Poised.send (h : sys.Poised group member o) (op : String) (arguments : List Value) :
    sys.send (toMember group member op arguments) =
      (⟨sys.promises.size⟩,
        { sys with
          promises := (sys.promises.push .fresh).push (.settled o.settled)
          scheduler := sys.scheduler.schedule
            (.react (.wrap ⟨sys.promises.size⟩ member (member ++ "/" ++ op)) o.settled) }) := by
  obtain ⟨responder, route, repeats⟩ := h.route
  have split : Path.split? (member ++ "/" ++ op).toList = some (member.toList, op.toList) := by
    have path : (member ++ "/" ++ op).toList = member.toList ++ '/' :: op.toList := by simp
    rw [path, Path.split?_append h.plain]
  have answered : sys.newPromise.2.sendAlong (.responder responder) op.toList arguments =
      sys.newPromise.2.settledPromise o := by
    have still : sys.newPromise.2.Repeats responder o := repeats
    rw [sendAlong]
    exact still.respond _ arguments
  rw [toMember, System.send, sendAlong_group split (by rw [String.ofList_toList, route]), answered,
    observe_of_settled (promise_settledPromise _ _), settledPromise_eq, String.ofList_toList,
    String.ofList_toList]
  rfl

/-- A worker that finds nothing else takes the task that was scheduled last. -/
theorem work?_schedule (ready : sys.scheduler.ready = []) (delayed : sys.scheduler.delayed = [])
    (task : Task ι σ) :
    (sys.schedule task).work? =
      some ({ sys with scheduler := { sys.scheduler with active := sys.scheduler.active + 1 } }.perform
        task).finish := by
  simp [work?, schedule, Scheduler.schedule, Scheduler.take?, Scheduler.takeReady?, ready, delayed]

/-- Consulting once makes the promise of the group and that of the member, both settled, and changes lists and
maps as the group does. -/
theorem Poised.consult (h : sys.Poised group member o) (op : String) (arguments : List Value) :
    sys.consult (toMember group member op arguments) =
      let answer := sys.memory.heap.groupAnswer member (member ++ "/" ++ op) o.settled
      (⟨sys.promises.size⟩,
        { sys with
          memory := { sys.memory with heap := answer.2 }
          promises := (sys.promises.push (.settled (.ok answer.1))).push (.settled o.settled) }) := by
  set sent : System ι σ := { sys with promises := (sys.promises.push .fresh).push (.settled o.settled) }
  set answer := sys.memory.heap.groupAnswer member (member ++ "/" ++ op) o.settled with same
  have fresh : sent.promise ⟨sys.promises.size⟩ = .fresh := by
    simp only [sent, promise, Array.getD_eq_getD_getElem?, Array.getElem?_push, Array.size_push]
    simp
  have ready : sent.scheduler.ready = [] := h.ready
  have worked := work?_schedule ready h.delayed
    (.react (.wrap ⟨sys.promises.size⟩ member (member ++ "/" ++ op)) o.settled)
  rw [perform, react_wrap (by exact fresh)] at worked
  have settled : ((sys.promises.push .fresh).push (.settled o.settled)).setIfInBounds sys.promises.size
      (.settled (.ok answer.1)) =
      (sys.promises.push (.settled (.ok answer.1))).push (.settled o.settled) := by
    apply Array.toList_inj.mp
    simp
  rw [System.consult, h.send]
  change (_, ((sent.schedule _).work?).getD _) = _
  rw [worked, Option.getD_some]
  simp [finish, Scheduler.finish, sent, settled, ← same]

/-- Consulting leaves the system at rest. -/
theorem Poised.after (h : sys.Poised group member o) (op : String) (arguments : List Value) :
    (sys.consult (toMember group member op arguments)).2.Poised group member o := by
  rw [h.consult]
  exact ⟨h.ready, h.delayed, h.plain, h.route⟩

theorem Poised.heap_consult (h : sys.Poised group member o) (op : String) (arguments : List Value) :
    (sys.consult (toMember group member op arguments)).2.memory.heap =
      (sys.memory.heap.groupAnswer member (member ++ "/" ++ op) o.settled).2 := by
  rw [h.consult]

theorem Poised.promise_consult_of_lt (h : sys.Poised group member o) (op : String) (arguments : List Value)
    {p : PromiseRef} (older : p.index < sys.promises.size) :
    (sys.consult (toMember group member op arguments)).2.promise p = sys.promise p := by
  rw [h.consult]
  simp only [promise, Array.getD_eq_getD_getElem?, Array.getElem?_push, Array.size_push,
    Nat.ne_of_lt older, Nat.ne_of_lt (Nat.lt_succ_of_lt older), if_false]

/-- The two promises that are made are settled. -/
theorem Poised.promise_consult (h : sys.Poised group member o) (op : String) (arguments : List Value) :
    let asked := sys.consult (toMember group member op arguments)
    asked.1 = ⟨sys.promises.size⟩ ∧
    asked.2.promise ⟨sys.promises.size⟩ = .settled
      (.ok (sys.memory.heap.groupAnswer member (member ++ "/" ++ op) o.settled).1) ∧
    asked.2.promise ⟨sys.promises.size + 1⟩ = .settled o.settled := by
  rw [h.consult]
  simp only [promise, Array.getD_eq_getD_getElem?, Array.getElem?_push, Array.size_push]
  simp

theorem Poised.size_consult (h : sys.Poised group member o) (op : String) (arguments : List Value) :
    (sys.consult (toMember group member op arguments)).2.promises.size = sys.promises.size + 2 := by
  rw [h.consult]
  simp

/-- Promises that were made before stay as they are. -/
theorem Poised.promise_consults_of_lt (h : sys.Poised group member o) (op : String) (arguments : List Value)
    (n : Nat) {p : PromiseRef} (older : p.index < sys.promises.size) :
    (sys.consults (toMember group member op arguments) n).2.promise p = sys.promise p := by
  induction n generalizing sys with
  | zero => rfl
  | succ n ih =>
    have first := h.promise_consult_of_lt op arguments older
    refine (ih (h.after op arguments) ?_).trans first
    rw [h.size_consult]
    omega

/-- Whatever the member answers, a list or map that is there stays as it is, unless it is the map that the
member answers with and tells its way. -/
theorem Poised.sameAt_consults (h : sys.Poised group member o) (op : String) (arguments : List Value) (n : Nat)
    {w : Value} (has : sys.memory.heap.Has w)
    (other : ∀ m, w = .map m → o.settled = .ok (.map m) → sys.memory.heap.source? m = none) :
    sys.memory.heap.SameAt
      (sys.consults (toMember group member op arguments) n).2.memory.heap w := by
  induction n generalizing sys with
  | zero => exact .refl _ w
  | succ n ih =>
    have first : sys.memory.heap.SameAt
        (sys.consult (toMember group member op arguments)).2.memory.heap w := by
      rw [h.heap_consult]
      exact Heap.sameAt_groupAnswer has member _ other
    refine first.trans (ih (h.after op arguments) ?_ ?_)
    · rw [h.heap_consult]
      exact (Heap.grows_groupAnswer _ member _ _).has has
    · rintro m rfl answered
      rw [first.source?_eq]
      exact other m rfl answered

/-- The way that the map of the member tells gets longer with every message, and nothing else in it
changes. -/
theorem Poised.source?_consults (h : sys.Poised group member o) (op : String) (arguments : List Value) (n : Nat)
    {m : MapRef} {source : String} (answered : o.settled = .ok (.map m))
    (told : sys.memory.heap.source? m = some source) :
    let heap := (sys.consults (toMember group member op arguments) n).2.memory.heap
    heap.source? m = some (prefixed member source n) ∧
      ∀ key, key ≠ "source" →
        Entries.find? key (heap.entries m) = Entries.find? key (sys.memory.heap.entries m) := by
  induction n generalizing sys source with
  | zero => exact ⟨told, fun _ _ ↦ rfl⟩
  | succ n ih =>
    obtain ⟨longer, others⟩ := Heap.groupAnswer_told told member (member ++ "/" ++ op)
    rw [← answered, ← h.heap_consult op arguments] at longer others
    obtain ⟨way, rest⟩ := ih (h.after op arguments) longer
    refine ⟨?_, fun key apart ↦ (rest key apart).trans (others key apart)⟩
    rw [← prefixed_succ]
    exact way

/-- Every message makes a promise that is settled with the map of the member, and so is the promise made
for it by the member. -/
theorem Poised.promise_consults (h : sys.Poised group member o) (op : String) (arguments : List Value) (n : Nat)
    {m : MapRef} {source : String} (answered : o.settled = .ok (.map m))
    (told : sys.memory.heap.source? m = some source) :
    let asked := sys.consults (toMember group member op arguments) n
    ∀ p ∈ asked.1, asked.2.promise p = .settled (.ok (.map m)) ∧
      asked.2.promise ⟨p.index + 1⟩ = .settled (.ok (.map m)) := by
  induction n generalizing sys source with
  | zero => exact nofun
  | succ n ih =>
    obtain ⟨longer, -⟩ := Heap.groupAnswer_told told member (member ++ "/" ++ op)
    rw [← answered, ← h.heap_consult op arguments] at longer
    have after := h.after op arguments
    intro asked p mem
    rcases List.mem_cons.mp mem with first | later
    · obtain ⟨made, answer, inner⟩ := h.promise_consult op arguments
      have kept : ∀ {p : PromiseRef}, p.index < sys.promises.size + 2 →
          asked.2.promise p = (sys.consult (toMember group member op arguments)).2.promise p :=
        fun young ↦ after.promise_consults_of_lt op arguments n ((h.size_consult op arguments).symm ▸ young)
      obtain rfl : p = ⟨sys.promises.size⟩ := first.trans made
      constructor
      · rw [answered, Heap.groupAnswer_of_source? told] at answer
        exact (kept (Nat.lt_add_of_pos_right Nat.zero_lt_two)).trans answer
      · rw [answered] at inner
        exact (kept (Nat.lt_succ_self _)).trans inner
    · exact ih after longer p later

theorem length_consults (sys : System ι σ) (message : Message) (n : Nat) :
    (sys.consults message n).1.length = n := by
  induction n generalizing sys with
  | zero => rfl
  | succ n ih => exact congrArg (· + 1) (ih (sys.consult message).2)

/-- A group sends on some number of messages to a member that answers each with the same outcome.  Lists and
maps that were there stay as they are, but for the map that the member answers with, if it tells its way:
that map is what all the promises are settled with, those of the member included, the way in it gets longer
by the member's name with every message, and nothing else in it changes. -/
theorem consults_prefixed (h : sys.Poised group member o) (op : String) (arguments : List Value) (n : Nat) :
    let asked := sys.consults (toMember group member op arguments) n
    asked.1.length = n ∧
    (∀ w, sys.memory.heap.Has w →
      (∀ m, w = .map m → o.settled = .ok (.map m) → sys.memory.heap.source? m = none) →
        sys.memory.heap.SameAt asked.2.memory.heap w) ∧
    ∀ m source, o.settled = .ok (.map m) → sys.memory.heap.source? m = some source →
      (∀ p ∈ asked.1, asked.2.promise p = .settled (.ok (.map m)) ∧
        asked.2.promise ⟨p.index + 1⟩ = .settled (.ok (.map m))) ∧
      asked.2.memory.heap.source? m = some (prefixed member source n) ∧
      ∀ key, key ≠ "source" → Entries.find? key (asked.2.memory.heap.entries m) =
        Entries.find? key (sys.memory.heap.entries m) := by
  refine ⟨sys.length_consults _ n, ?_, ?_⟩
  · intro w has other
    exact h.sameAt_consults op arguments n has other
  · intro m source answered told
    exact ⟨h.promise_consults op arguments n answered told, h.source?_consults op arguments n answered told⟩

/-- A group with a member that answers every message with one map, which tells its way. -/
def origin : System Unit Unit :=
  { (ofWorkers 1 : System Unit Unit) with
    memory := ⟨⟨#[], #[[("source", .string "origin")]]⟩, []⟩
    groups := #[[("s", .responder 0)]]
    responders := #[fun _ _ memory ↦ (.value (.map ⟨0⟩), memory)] }

end Consulting

end System

end Troupe
