import Troupe.Proofs.Promise.Relay

/-!
# The way of a message through groups

A message to a group goes on to a member with the rest of its path, and that may be a group again.  However
the groups contain each other, each of them takes a name and a slash from the path, so the way ends: at an
actor or a responder, which gets what is left of the path for its operation, or at a group that refuses the
message (`System.Way`, `System.exists_way`).

Sending a message makes a promise for each group on the way, sends what is left of it to the last receiver,
and brings the groups to the promises inside, the innermost first (`System.Way.send`).
-/

namespace Troupe

namespace Path

/-- A name and what comes behind it on a path. -/
def join (name rest : String) : String := name ++ "/" ++ rest

theorem toList_join (name rest : String) : (join name rest).toList = name.toList ++ '/' :: rest.toList := by
  simp [join]

theorem split?_join {name : String} (plain : '/' ∉ name.toList) (rest : String) :
    split? (join name rest).toList = some (name.toList, rest.toList) := by
  rw [toList_join, split?_append plain]

theorem join_inj {name name' rest rest' : String} (plain : '/' ∉ name.toList) (plain' : '/' ∉ name'.toList)
    (same : join name rest = join name' rest') : name = name' ∧ rest = rest' := by
  have splits := split?_join plain rest
  rw [same, split?_join plain' rest'] at splits
  obtain ⟨names, rests⟩ := Prod.mk.inj (Option.some.inj splits)
  exact ⟨String.toList_inj.mp names.symm, String.toList_inj.mp rests.symm⟩

theorem join_join (first others rest : String) :
    join (join first others) rest = join first (join others rest) := by
  simp [join, String.append_assoc]

theorem split?_eq_none {path : List Char} (plain : '/' ∉ path) : split? path = none := by
  induction path with
  | nil => rfl
  | cons c cs ih =>
    rw [List.mem_cons, not_or] at plain
    rw [split?, if_neg (Ne.symm plain.1), ih plain.2]
    rfl

/-- A path has a slash or has none. -/
theorem plain_or_join (path : String) :
    '/' ∉ path.toList ∨ ∃ name rest, '/' ∉ name.toList ∧ path = join name rest := by
  by_cases slash : '/' ∈ path.toList
  · obtain ⟨name, rest, shape, plain⟩ := List.eq_append_cons_of_mem slash
    refine .inr ⟨String.ofList name, String.ofList rest, by rwa [String.toList_ofList], ?_⟩
    apply String.toList_inj.mp
    rw [toList_join, String.toList_ofList, String.toList_ofList, shape]
  · exact .inl slash

end Path

namespace System

open Web

variable {ι σ : Type} {members : Nat → Entries Mailbox}

/-! ## What a group does with a message -/

section Group

variable {sys : System ι σ} {group : Nat} {name : String}

/-- A message leads to another message and to nothing else, but that the answer is wrapped as one of a
member. -/
def PassesOn (sys : System ι σ) (m : Message) (member : String) (onward : Message) : Prop :=
  sys.send m = (sys.newPromise.1, (sys.newPromise.2.send onward).2.observe (sys.newPromise.2.send onward).1
    (.wrap sys.newPromise.1 member m.path))

/-- A group passes a message on to the member before the first slash of its path. -/
theorem passesOn_join (plain : '/' ∉ name.toList) {mailbox : Mailbox}
    (route : Entries.find? name (sys.members group) = some mailbox) (rest : String) (arguments : List Value) :
    sys.PassesOn ⟨.group group, Path.join name rest, arguments⟩ name ⟨mailbox, rest, arguments⟩ := by
  rw [PassesOn, send, sendAlong_group (Path.split?_join plain rest) (by rw [String.ofList_toList, route]),
    send, String.ofList_toList, String.ofList_toList]

/-- A group refuses a message to no member. -/
theorem send_join_of_none (plain : '/' ∉ name.toList)
    (route : Entries.find? name (sys.members group) = none) (rest : String) (arguments : List Value) :
    sys.send ⟨.group group, Path.join name rest, arguments⟩ = sys.refused (.unknownMember name) := by
  have splits := Path.split?_join plain rest
  rw [send, sendAlong]
  split
  next none => cases splits.symm.trans none
  next first others found =>
    cases splits.symm.trans found
    rw [String.ofList_toList, route]

/-- A group refuses a message that names no member. -/
theorem send_of_plain {path : String} (plain : '/' ∉ path.toList) (arguments : List Value) :
    sys.send ⟨.group group, path, arguments⟩ = sys.refused (.invalidPath path) := by
  rw [send, sendAlong]
  split
  next none => rw [String.ofList_toList]
  next first others found => cases (Path.split?_eq_none plain).symm.trans found

end Group

/-! ## Ways -/

/-- What is the end of a way: an actor, a responder, or a group that refuses what is left of the path. -/
inductive Ends (members : Nat → Entries Mailbox) : Mailbox → String → Option DispatchError → Prop where
  /-- an actor -/
  | actor (i : Nat) (path : String) : Ends members (.actor i) path none
  /-- a responder -/
  | responder (i : Nat) (path : String) : Ends members (.responder i) path none
  /-- a group that finds no slash -/
  | invalid (i : Nat) {path : String} (plain : '/' ∉ path.toList) :
      Ends members (.group i) path (some (.invalidPath path))
  /-- a group that finds no member -/
  | unknown (i : Nat) {name : String} (rest : String) (plain : '/' ∉ name.toList)
      (nobody : Entries.find? name (members i) = none) :
      Ends members (.group i) (Path.join name rest) (some (.unknownMember name))

/-- The groups on the way of a message, the promises that they make, from number `n` on, and the last receiver
with what is left of the path. -/
inductive Way (members : Nat → Entries Mailbox) : Nat → Mailbox → String → List Hop → Mailbox → String → Prop where
  /-- the receiver is the last -/
  | last (n : Nat) (mailbox : Mailbox) (path : String) : Way members n mailbox path [] mailbox path
  /-- a group sends the message on -/
  | through {n i : Nat} {name rest left : String} {next mailbox : Mailbox} {hops : List Hop}
      (plain : '/' ∉ name.toList) (route : Entries.find? name (members i) = some next)
      (more : Way members (n + 1) next rest hops mailbox left) :
      Way members n (.group i) (Path.join name rest) (⟨⟨n⟩, name, Path.join name rest⟩ :: hops) mailbox left

/-- Every way ends. -/
theorem exists_way (members : Nat → Entries Mailbox) (n : Nat) (mailbox : Mailbox) (path : String) :
    ∃ hops last left e, Way members n mailbox path hops last left ∧ Ends members last left e := by
  induction size : path.toList.length using Nat.strongRecOn generalizing n mailbox path with
  | ind length ih =>
    cases mailbox with
    | actor i => exact ⟨[], _, _, _, .last n _ path, .actor i path⟩
    | responder i => exact ⟨[], _, _, _, .last n _ path, .responder i path⟩
    | group i =>
      rcases Path.plain_or_join path with plain | ⟨name, rest, plain, rfl⟩
      · exact ⟨[], _, _, _, .last n _ path, .invalid i plain⟩
      · cases route : Entries.find? name (members i) with
        | none => exact ⟨[], _, _, _, .last n _ _, .unknown i rest plain route⟩
        | some next =>
          have shorter : rest.toList.length < length := by
            rw [← size, Path.toList_join, List.length_append, List.length_cons]
            omega
          obtain ⟨hops, last, left, e, more, ends⟩ := ih _ shorter (n + 1) next rest rfl
          exact ⟨_, last, left, e, .through plain route more, ends⟩

namespace Way

variable {n : Nat} {mailbox last : Mailbox} {path left : String} {hops : List Hop}

/-- A way takes a slash for each group. -/
theorem length_add_count (way : Way members n mailbox path hops last left) :
    hops.length + left.toList.count '/' = path.toList.count '/' := by
  induction way with
  | last => exact Nat.zero_add _
  | @through n i name rest left next last hops plain route more ih =>
    rw [Path.toList_join, List.count_append, List.count_eq_zero_of_not_mem plain, List.count_cons_self, ← ih,
      List.length_cons]
    omega

/-- The whole path is the names of the members on the way, and what is left. -/
theorem path_eq (way : Way members n mailbox path hops last left) :
    path = (hops.map Hop.member).foldr Path.join left := by
  induction way with
  | last => rfl
  | through plain route more ih => rw [List.map_cons, List.foldr_cons, ← ih]

/-- A group that finds the member is not the end of a way. -/
theorem ne_nil {i : Nat} {name rest : String} {next : Mailbox} {e : Option DispatchError}
    (way : Way members n (.group i) (Path.join name rest) hops last left) (ends : Ends members last left e)
    (plain : '/' ∉ name.toList) (route : Entries.find? name (members i) = some next) : hops ≠ [] := by
  rintro rfl
  generalize whole : Path.join name rest = path at way
  cases way
  cases ends with
  | invalid i plain =>
    rw [← whole, Path.toList_join] at plain
    exact plain (List.mem_append_right _ List.mem_cons_self)
  | unknown i rest plain' nobody =>
    obtain ⟨rfl, -⟩ := Path.join_inj plain plain' whole
    exact absurd (route.symm.trans nobody) nofun

theorem head_path (way : Way members n mailbox path hops last left) : ∀ h ∈ hops.head?, h.path = path := by
  cases way with
  | last => exact nofun
  | through plain route more =>
    intro h first
    cases first
    rfl

theorem nested (way : Way members n mailbox path hops last left) : Nested hops := by
  induction way with
  | last => exact .nil
  | @through n i name rest left next last hops plain route more ih =>
    apply List.isChain_cons.mpr
    constructor
    · intro h first
      exact congrArg (Path.join name) (more.head_path h first).symm
    · exact ih

/-- The promises of the groups are new, and come one after the other. -/
theorem targets (way : Way members n mailbox path hops last left) :
    hops.map Hop.target = (List.range' n hops.length).map PromiseRef.mk := by
  induction way with
  | last => rfl
  | through plain route more ih =>
    rw [List.map_cons, ih, List.length_cons, List.range'_succ, List.map_cons]

theorem nodup_targets (way : Way members n mailbox path hops last left) : (hops.map Hop.target).Nodup := by
  rw [way.targets]
  exact (List.nodup_range' ..).map fun i j same ↦ congrArg PromiseRef.index same

theorem exists_target_eq (way : Way members n mailbox path hops last left) {h : Hop} (among : h ∈ hops) :
    ∃ i < hops.length, h.target = ⟨n + i⟩ := by
  have target : h.target ∈ (List.range' n hops.length).map PromiseRef.mk := by
    rw [← way.targets]
    exact List.mem_map_of_mem among
  obtain ⟨number, within, same⟩ := List.mem_map.mp target
  obtain ⟨i, small, rfl⟩ := List.mem_range'.mp within
  exact ⟨i, small, by rw [← same, Nat.one_mul]⟩

end Way

/-! ## Sending along a way -/

/-- Makes some promises. -/
def promised : Nat → System ι σ → System ι σ
  | 0, sys => sys
  | n + 1, sys => promised n sys.newPromise.2

/-- Brings the observers of some hops to the promises inside, the innermost first. -/
def attach (leaf : PromiseRef) : List Hop → System ι σ → System ι σ
  | [], sys => sys
  | h :: inner, sys => (attach leaf inner sys).observe (outermost leaf inner) h.observer

theorem members_promised (n : Nat) (sys : System ι σ) : (promised n sys).members = sys.members := by
  induction n generalizing sys with
  | zero => rfl
  | succ n ih => exact ih sys.newPromise.2

variable {sys : System ι σ}

/-- A message that goes along a way makes a promise for each group, reaches the last receiver with what is
left of the path, and then the groups are brought to the promises inside. -/
theorem Way.send {mailbox last : Mailbox} {path left : String} {hops : List Hop}
    (way : Way sys.members sys.promises.size mailbox path hops last left) {arguments : List Value}
    {leaf : PromiseRef} {after : System ι σ}
    (sent : (promised hops.length sys).send ⟨last, left, arguments⟩ = (leaf, after)) :
    sys.send ⟨mailbox, path, arguments⟩ = (outermost leaf hops, attach leaf hops after) := by
  generalize known : sys.members = members at way
  generalize size : sys.promises.size = n at way
  induction way generalizing sys with
  | last => exact sent
  | @through n i name rest left next last hops plain route more ih =>
    subst size
    rw [← known] at route
    have onward : sys.newPromise.2.send ⟨next, rest, arguments⟩ = (outermost leaf hops, attach leaf hops after) :=
      ih sent known (Array.size_push ..)
    rw [passesOn_join plain route rest arguments, onward]
    rfl

/-- What becomes of a message at the end of its way: what is left of the path is the name of the operation, or
the message is refused. -/
inductive Arrives (sys : System ι σ) (left : String) (arguments : List Value) :
    Mailbox → Option DispatchError → PromiseRef × System ι σ → Prop where
  /-- an actor gets it -/
  | actor (i : Nat) : Arrives sys left arguments (.actor i) none (sys.call i left arguments)
  /-- a responder gets it -/
  | responder (i : Nat) : Arrives sys left arguments (.responder i) none (sys.respond i left arguments)
  /-- a group refuses it -/
  | refused (i : Nat) (e : DispatchError) : Arrives sys left arguments (.group i) (some e) (sys.refused e)

theorem Ends.arrives {last : Mailbox} {left : String} {e : Option DispatchError}
    (ends : Ends sys.members last left e) (arguments : List Value) :
    sys.Arrives left arguments last e (sys.send ⟨last, left, arguments⟩) := by
  cases ends with
  | actor i =>
    rw [System.send, sendAlong, String.ofList_toList]
    exact .actor i
  | responder i =>
    rw [System.send, sendAlong, String.ofList_toList]
    exact .responder i
  | invalid i plain =>
    rw [send_of_plain plain]
    exact .refused i _
  | unknown i rest plain nobody =>
    rw [send_join_of_none plain nobody]
    exact .refused i _

end System

end Troupe
