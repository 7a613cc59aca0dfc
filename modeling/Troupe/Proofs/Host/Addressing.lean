import Troupe.Proofs.Host.Build
import Troupe.Proofs.System.Route

/-!
# Modules are addressed through the group of their host

A path to a module is its name, a slash and an operation.  The group of a host takes the text before the
first slash of a path for the name of a member.  So a module gets what is sent along its path if there is no
slash in its name.  If there is one, then the name that is looked up is only the part before the slash: the
module of that name gets the message, with the rest of the path as the operation, or the message is refused.
-/

namespace Troupe

variable {ι σ : Type}

/-! ## A message that is refused -/

namespace System

section Refused

variable {sys : System ι σ}

/-- A message that is refused makes one promise. -/
theorem size_refused (e : DispatchError) : (sys.refused e).2.promises.size = sys.promises.size + 1 := by
  rw [refused, settledPromise_eq, Array.size_push]

theorem size_settle (p : PromiseRef) (o : Outcome Value) :
    (sys.settle p o).2.promises.size = sys.promises.size := by
  simp [settle]

theorem size_observe (p : PromiseRef) (k : Observer ι) :
    (sys.observe p k).promises.size = sys.promises.size := by
  rw [observe]
  split
  · rfl
  · simp

theorem size_call (actor : Nat) (op : String) (arguments : List Value) :
    (sys.call actor op arguments).2.promises.size = sys.promises.size + 1 := by
  have made : sys.newPromise.2.promises.size = sys.promises.size + 1 := Array.size_push ..
  rw [call]
  dsimp only
  split
  · exact made
  · rw [size_settle, made]

/-- A message that is refused is not passed on to an actor, which would make two promises. -/
theorem not_passesOn_of_refused {m : Message} {e : DispatchError} (refused : sys.send m = sys.refused e)
    (member : String) (actor : Nat) (op : String) (arguments : List Value) :
    ¬ sys.PassesOn m member ⟨.actor actor, op, arguments⟩ := by
  intro passes
  have made : sys.newPromise.2.promises.size = sys.promises.size + 1 := Array.size_push ..
  have sizes := congrArg (fun sent ↦ sent.2.promises.size) (refused.symm.trans passes)
  dsimp only at sizes
  rw [size_refused, size_observe, send, sendAlong, size_call, made] at sizes
  omega

end Refused

end System

namespace Host

/-- A valid configuration makes a host, if the factories accept the configurations of its modules and leave
the group alone that the host makes first.  As long as the members of that group are those that the host was
built with, a message along the path to an operation of a module is handled by the name of the module.  If
there is no slash in the name, then the message leads to a message to the mailbox that the factory made of
the module, with just that operation and those arguments, and to no other.  If there is one, the message
goes to the module whose name is the part before the first slash, with a longer operation, and if there is
no such module then nothing gets it. -/
theorem build_addresses {c : Config} {registry : Registry ι σ} (valid : c.validate = .ok ())
    (accepted : ∀ m ∈ c.modules, ∃ factory, Entries.find? m.factory registry = some factory ∧
      Factory.Accepts factory m.configuration ∧ Factory.Spares factory 0) :
    ∃ host sys built, build c registry = .ok (host, sys) ∧ built.map Prod.fst = c.modules ∧
      Started registry host.modules.index built (System.ofWorkers c.threads.toNat).newGroup.2 sys ∧
      ∀ later : System ι σ, later.members host.modules.index = sys.members host.modules.index →
        ∀ m mailbox, (m, mailbox) ∈ built → ∀ op arguments,
          ('/' ∉ m.name.toList → later.PassesOn ⟨host.modules, Path.join m.name op, arguments⟩ m.name
            ⟨mailbox, op, arguments⟩) ∧
          ∀ first others, m.name = Path.join first others → '/' ∉ first.toList →
            (∀ m' mailbox', (m', mailbox') ∈ built → m'.name = first →
              later.PassesOn ⟨host.modules, Path.join m.name op, arguments⟩ first
                ⟨mailbox', Path.join others op, arguments⟩) ∧
            ((∀ m' ∈ c.modules, m'.name ≠ first) →
              later.send ⟨host.modules, Path.join m.name op, arguments⟩ =
                later.refused (.unknownMember first)) := by
  set empty : System ι σ := (System.ofWorkers c.threads.toNat).newGroup.2
  obtain ⟨built, sys, starts, modules, started⟩ := exists_started (.group 0)
    (fun m among ↦ (accepted m among).imp fun _ h ↦ ⟨h.1, h.2.1⟩) empty
  have names : built.map (fun b ↦ b.1.name) = c.modules.map Module.name := by
    rw [← modules, List.map_map]
    rfl
  have nodup : (built.map fun b ↦ b.1.name).Nodup := names ▸ Config.nodup_names valid
  have spares : ∀ m ∈ built.map Prod.fst, ∀ factory, Entries.find? m.factory registry = some factory →
      Factory.Spares factory 0 := by
    intro m among factory known
    obtain ⟨factory', known', -, spares⟩ := accepted m (modules ▸ among)
    obtain rfl := Option.some.inj (known.symm.trans known')
    exact spares
  have there : 0 < empty.groups.size := Nat.zero_lt_one
  refine ⟨⟨.group 0, listening c.modules, c.maxMessageSize.toNat⟩, sys, built, ?_, modules, started, ?_⟩
  · change (startAll registry (.group 0) c.modules empty).map _ = _
    rw [starts]
    rfl
  · intro later same m mailbox among op arguments
    have route {m' : Module} {mailbox' : Mailbox} (among : (m', mailbox') ∈ built) :
        Entries.find? m'.name (later.members 0) = some mailbox' := by
      rw [← started.find?_name there spares nodup among]
      exact congrArg _ same
    constructor
    · intro plain
      exact System.passesOn_join plain (route among) op arguments
    · intro first others shape plain
      rw [shape, Path.join_join]
      constructor
      · rintro m' mailbox' among' rfl
        exact System.passesOn_join plain (route among') _ arguments
      · intro nobody
        apply System.send_join_of_none plain
        have absent : first ∉ built.map fun b ↦ b.1.name := by
          rw [names, List.mem_map]
          rintro ⟨m', among', named⟩
          exact nobody m' among' named
        exact (congrArg _ same).trans (started.find?_other there spares absent)

/-- An account without funds. -/
def account (name : String) : Module := ⟨name, Account.factoryName, none, []⟩

/-- A configuration of accounts with these names. -/
def accounts (names : List String) : Config := { Config.ofThreads 2 with modules := names.map account }

/-- The factory of accounts needs no configuration. -/
theorem accepts_accountFactory : Factory.Accepts (Stock.accountFactory : Factory ι Stock.Holding) [] := by
  intro r sys stands
  rw [Heap.Stands] at stands
  obtain ⟨r', same, empty⟩ := stands
  rw [Heap.StandsEntries] at empty
  cases same
  refine ⟨.actor sys.actors.size, ?_⟩
  rw [Stock.accountFactory, Stock.factoryOf, empty]
  rfl

/-- What is sent along the path to one of two accounts is passed on to it; there is a slash in the name of the
other, and what is sent along its path is refused. -/
theorem build_addresses_accounts :
    ∃ (host : Host) (sys : System Unit Stock.Holding) (built : List (Module × Mailbox)),
      build (accounts ["till", "bank/main"]) factories = .ok (host, sys) ∧
      (∃ mailbox, (account "till", mailbox) ∈ built ∧
        sys.PassesOn ⟨host.modules, "till/balance", []⟩ "till" ⟨mailbox, "balance", []⟩) ∧
      sys.send ⟨host.modules, "bank/main/balance", []⟩ = sys.refused (.unknownMember "bank") := by
  have valid : (accounts ["till", "bank/main"]).validate = .ok () := rfl
  have accepted : ∀ m ∈ (accounts ["till", "bank/main"]).modules, ∃ factory,
      Entries.find? m.factory (factories : Registry Unit Stock.Holding) = some factory ∧
        Factory.Accepts factory m.configuration ∧ Factory.Spares factory 0 := by
    intro m among
    obtain ⟨name, -, rfl⟩ := List.mem_map.mp among
    exact ⟨Stock.accountFactory, rfl, accepts_accountFactory, Stock.spares_factoryOf _ _ 0⟩
  obtain ⟨host, sys, built, builds, modules, -, addresses⟩ := build_addresses valid accepted
  have named (name : String) (listed : name ∈ ["till", "bank/main"]) :
      ∃ mailbox, (account name, mailbox) ∈ built := by
    have among : account name ∈ built.map Prod.fst := modules ▸ List.mem_map_of_mem listed
    obtain ⟨⟨m, mailbox⟩, among, rfl⟩ := List.mem_map.mp among
    exact ⟨mailbox, among⟩
  obtain ⟨till, isTill⟩ := named "till" (by decide)
  obtain ⟨main, isMain⟩ := named "bank/main" (by decide)
  refine ⟨host, sys, built, builds, ⟨till, isTill, ?_⟩, ?_⟩
  · exact (addresses sys rfl _ till isTill "balance" []).1 (by decide)
  · exact ((addresses sys rfl _ main isMain "balance" []).2 "bank" "main" (by decide) (by decide)).2 (by decide)

/-- A valid configuration names a module that its factory makes, and what is sent along its path does not get
to it. -/
theorem slash_misaddressed :
    ∃ host sys mailbox, (accounts ["a/b"]).validate = .ok () ∧
      build (accounts ["a/b"]) (factories : Registry Unit Stock.Holding) = .ok (host, sys) ∧
      host.mailbox? sys "a/b" = some mailbox ∧
      sys.send ⟨host.modules, "a/b/balance", []⟩ = sys.refused (.unknownMember "a") ∧
      ∀ member, ¬ sys.PassesOn ⟨host.modules, "a/b/balance", []⟩ member ⟨mailbox, "balance", []⟩ := by
  have refused {sys : System Unit Stock.Holding} (nobody : Entries.find? "a" (sys.members 0) = none) :
      sys.send ⟨.group 0, "a/b/balance", []⟩ = sys.refused (.unknownMember "a") := by
    have plain : '/' ∉ "a".toList := by decide
    exact System.send_join_of_none plain nobody "b/balance" []
  refine ⟨_, _, .actor 0, rfl, rfl, rfl, refused rfl, ?_⟩
  intro member
  exact System.not_passesOn_of_refused (refused rfl) member 0 "balance" []

end Host

end Troupe
