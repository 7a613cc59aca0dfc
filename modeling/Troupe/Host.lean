import Troupe.Config.Basic
import Troupe.Net.Address
import Troupe.Stock.Cast

/-!
# Hosts

A host turns a configuration into actors: every module is built by its factory and becomes a member of one
group, under its name, so that it is found at the path of its name and an operation.  Modules with an
address are also served there.
-/

namespace Troupe

inductive HostError where
  | instantiate (module cause : String)
  | bind (module address : String)
deriving DecidableEq, Repr

namespace HostError

def message : HostError → String
  | .instantiate name _ => "Failed to instantiate module " ++ name
  | .bind name address => "Failed to bind module " ++ name ++ " to " ++ address

def explained : HostError → String
  | .instantiate name cause => (HostError.instantiate name cause).message ++ ": " ++ cause
  | e => e.message

end HostError

structure Host where
  /-- the group of all modules -/
  modules : Mailbox
  /-- the modules that are served, with their addresses -/
  listen : List (String × String)
  limit : Nat
deriving Repr

namespace Host

variable {ι σ : Type}

def listening (modules : List Module) : List (String × String) :=
  modules.filterMap fun m ↦ m.listen.map fun address ↦ (m.name, address)

def start (registry : Registry ι σ) (group : Mailbox) (m : Module) (sys : System ι σ) :
    Except HostError (System ι σ) :=
  let (configuration, memory) := sys.memory.onHeap fun h ↦
    let (entries, h) := h.allocEntries m.configuration
    h.newMap entries
  match registry.instantiate m.factory configuration { sys with memory } with
  | (.error cause, _) => .error (.instantiate m.name cause)
  | (.ok mailbox, sys) => .ok (sys.onGroup group.index (Entries.insert m.name mailbox))

/-- Builds modules one after the other, up to the first error. -/
def startAll (registry : Registry ι σ) (group : Mailbox) :
    List Module → System ι σ → Except HostError (System ι σ)
  | [], sys => .ok sys
  | m :: rest, sys =>
    match start registry group m sys with
    | .error e => .error e
    | .ok sys => startAll registry group rest sys

def build (c : Config) (registry : Registry ι σ) : Except HostError (Host × System ι σ) :=
  let (group, sys) := (System.ofWorkers c.threads.toNat).newGroup
  (startAll registry group c.modules sys).map fun sys ↦
    (⟨group, listening c.modules, c.maxMessageSize.toNat⟩, sys)

def mailbox? (host : Host) (sys : System ι σ) (module : String) : Option Mailbox :=
  Entries.find? module (sys.members host.modules.index)

/-- Takes up addresses one after the other, beside those that are taken. -/
def bindFrom (taken : List Net.Address) : List (String × String) → Except HostError (List String)
  | [] => .ok []
  | (name, address) :: rest =>
    match Net.Address.ofText? address with
    | none => .error (.bind name address)
    | some a =>
      if taken.any a.conflicts then .error (.bind name address)
      else (bindFrom (a :: taken) rest).map (name :: ·)

/-- Takes up the addresses of a host: the names of the modules that are served. -/
def bind (host : Host) : Except HostError (List String) := bindFrom [] host.listen

def factories : Registry ι Stock.Holding := [(Account.factoryName, Stock.accountFactory)]

end Host

end Troupe
