import Troupe.Proofs.Entries
import Troupe.Proofs.Host.Addressing

/-!
# No module is lost

A host goes through the modules of its configuration in order, up to the first one that is refused.  If none
is refused, then the group of the host has one member for each module: insertions replace what is there
under the same name, but a valid configuration gives no name twice (`Host.no_module_lost`).
-/

namespace Troupe

variable {ι σ : Type}

namespace Host

variable {registry : Registry ι σ} {sys : System ι σ}

/-- The members of the group are the mailboxes under the names of their modules. -/
theorem Started.perm_members {group : Nat} {built : List (Module × Mailbox)} {sys' : System ι σ}
    (h : Started registry group built sys sys') (there : group < sys.groups.size)
    (empty : sys.members group = [])
    (spares : ∀ name factory, Entries.find? name registry = some factory → Factory.Spares factory group)
    (nodup : (built.map fun b ↦ b.1.name).Nodup) :
    (sys'.members group).Perm (built.map fun b ↦ (b.1.name, b.2)) := by
  have all : sys'.members group = Entries.ofList (built.map fun b ↦ (b.1.name, b.2)) := by
    rw [h.members there fun m _ factory known ↦ spares _ factory known, empty, Entries.ofList, List.foldl_map]
  rw [all]
  exact Entries.perm_ofList (by rwa [List.map_map])

/-- A configuration is valid if it has workers, room for frames, a format and sound modules, and otherwise the
error is the first thing that is wrong with it.  A valid one makes a host whose group has the names of the
modules and no others, each with the mailbox that the factory of that module made, and which is served at the
addresses of its modules.  Or the first module that is refused is named, with the cause. -/
theorem no_module_lost (c : Config) (registry : Registry ι σ)
    (spares : ∀ name factory, Entries.find? name registry = some factory → Factory.Spares factory 0) :
    (c.validate = .ok () ↔ c.threads ≠ 0 ∧ c.maxMessageSize ≠ 0 ∧ (∃ f : Format, f.name = c.defaultFormat) ∧
      SoundModules c.modules) ∧
    (∀ e, c.validate = .error e ↔ c.Fault e) ∧
    (c.validate = .ok () →
      (∃ host sys built, build c registry = .ok (host, sys) ∧ built.map Prod.fst = c.modules ∧
        Started registry host.modules.index built (System.ofWorkers c.threads.toNat).newGroup.2 sys ∧
        (Entries.keys (sys.members host.modules.index)).Perm (c.modules.map Module.name) ∧
        (∀ m mailbox, (m, mailbox) ∈ built → host.mailbox? sys m.name = some mailbox) ∧
        host.listen = c.modules.filterMap fun m ↦ m.listen.map fun address ↦ (m.name, address)) ∨
      ∃ built sys m after cause, build c registry = .error (.instantiate m.name cause) ∧
        c.modules = built.map Prod.fst ++ m :: after ∧
        Started registry 0 built (System.ofWorkers c.threads.toNat).newGroup.2 sys ∧
        Refuses registry m sys cause) := by
  refine ⟨Config.validate_eq_ok_iff, fun e ↦ Config.validate_eq_error_iff, fun valid ↦ ?_⟩
  set empty : System ι σ := (System.ofWorkers c.threads.toNat).newGroup.2
  have built_by : build c registry = (startAll registry (.group 0) c.modules empty).map fun sys ↦
      (⟨.group 0, listening c.modules, c.maxMessageSize.toNat⟩, sys) := rfl
  rcases started_or_refused registry (.group 0) c.modules empty with
    ⟨built, sys, starts, modules, started⟩ | ⟨built, sys, m, after, cause, place, started, refuses, starts⟩
  · have names : built.map (fun b ↦ b.1.name) = c.modules.map Module.name := by
      rw [← modules, List.map_map]
      rfl
    have nodup : (built.map fun b ↦ b.1.name).Nodup := names ▸ Config.nodup_names valid
    have there : 0 < empty.groups.size := Nat.zero_lt_one
    have builds : build c registry = .ok (⟨.group 0, listening c.modules, c.maxMessageSize.toNat⟩, sys) := by
      rw [built_by, starts]
      rfl
    refine .inl ⟨_, sys, built, builds, modules, started, ?_, fun m mailbox among ↦ ?_, rfl⟩
    · have keys := (started.perm_members there rfl spares nodup).map Prod.fst
      rw [List.map_map] at keys
      exact names ▸ keys
    · exact started.find?_name there (fun m _ factory known ↦ spares _ factory known) nodup among
  · have fails : build c registry = .error (.instantiate m.name cause) := by
      rw [built_by, starts]
      rfl
    exact .inr ⟨built, sys, m, after, cause, fails, place, started, refuses⟩

/-- The factory of accounts leaves the group of the host alone. -/
theorem spares_factories {name : String} {factory : Factory ι Stock.Holding}
    (known : Entries.find? name factories = some factory) : Factory.Spares factory 0 := by
  rw [factories, Entries.find?] at known
  split at known
  · cases known
    exact Stock.spares_factoryOf _ _ 0
  · cases known

/-- Two accounts are both found, and of three accounts the one that comes again under a name is reported. -/
theorem no_module_lost_accounts :
    (accounts ["till", "bank", "till"]).validate = .error (.duplicateModule "till") ∧
    ∃ (host : Host) (sys : System Unit Stock.Holding),
      build (accounts ["till", "bank"]) factories = .ok (host, sys) ∧
      (Entries.keys (sys.members host.modules.index)).Perm ["till", "bank"] := by
  have lost (c : Config) :=
    no_module_lost c (factories : Registry Unit Stock.Holding) fun _ _ ↦ spares_factories
  constructor
  · have place : (accounts ["till", "bank", "till"]).modules =
        [account "till", account "bank"] ++ [account "till"] := rfl
    have json : Format.json.name = (accounts ["till", "bank", "till"]).defaultFormat := rfl
    have sound : SoundModules [account "till", account "bank"] := ⟨by decide, by decide, by decide⟩
    exact ((lost _).2.1 _).mpr
      (.module (by decide) (by decide) json place sound (.duplicate (by decide) (by decide)))
  · have valid : (accounts ["till", "bank"]).validate = .ok () := rfl
    rcases (lost _).2.2 valid with
      ⟨host, sys, built, builds, -, -, names, -⟩ | ⟨built, sys, m, after, cause, fails, -⟩
    · exact ⟨host, sys, builds, names⟩
    · cases fails

end Host

end Troupe
