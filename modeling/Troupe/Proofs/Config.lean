import Mathlib.Data.List.Nodup
import Troupe.Config.Basic

/-!
# What is wrong with a configuration

The modules of a configuration are sound if each has a name of its own and a factory (`SoundModules`).  A
configuration is valid exactly if it has workers, room for frames, a format and sound modules
(`Config.validate_eq_ok_iff`).  Otherwise the error is the first thing that is wrong with it, where the
modules come last and in their order, and of one module its name comes before its factory
(`Config.validate_eq_error_iff`).
-/

namespace Troupe

/-! ## Modules -/

/-- Modules that have names of their own and factories. -/
structure SoundModules (modules : List Module) : Prop where
  /-- each has a name -/
  named : ∀ m ∈ modules, m.name ≠ ""
  /-- no two have the same name -/
  distinct : (modules.map Module.name).Nodup
  /-- each has a factory -/
  made : ∀ m ∈ modules, m.factory ≠ ""

/-- What is wrong with a module after others of some names. -/
inductive Module.Fault (m : Module) (names : List String) : ConfigError → Prop where
  /-- it has no name -/
  | unnamed (nameless : m.name = "") : Fault m names .unnamedModule
  /-- it has the name of another one -/
  | duplicate (named : m.name ≠ "") (again : m.name ∈ names) : Fault m names (.duplicateModule m.name)
  /-- it has a name of its own, but no factory -/
  | noFactory (named : m.name ≠ "") (new : m.name ∉ names) (nobody : m.factory = "") :
    Fault m names (.noFactory m.name)

variable {m : Module} {seen names : List String} {modules before after : List Module} {e : ConfigError}

/-- Only which names there are counts, and not their order. -/
theorem Module.Fault.of_perm (fault : m.Fault seen e) (perm : seen.Perm names) : m.Fault names e := by
  cases fault with
  | unnamed nameless => exact .unnamed nameless
  | duplicate named again => exact .duplicate named (perm.mem_iff.mp again)
  | noFactory named new nobody => exact .noFactory named (mt perm.mem_iff.mpr new) nobody

/-- A module with a fault is not as it has to be. -/
theorem Module.Fault.not_fine (fault : m.Fault seen e) :
    ¬ (m.name ≠ "" ∧ m.name ∉ seen ∧ m.factory ≠ "") := by
  rintro ⟨named, new, made⟩
  cases fault with
  | unnamed nameless => exact named nameless
  | duplicate _ again => exact new again
  | noFactory _ _ nobody => exact made nobody

theorem validateModules_cons_of_fault (fault : m.Fault seen e) (rest : List Module) :
    validateModules seen (m :: rest) = .error e := by
  rw [validateModules]
  cases fault with
  | unnamed nameless => rw [if_pos nameless]
  | duplicate named again => rw [if_neg named, if_pos again]
  | noFactory named new nobody => rw [if_neg named, if_neg new, if_pos nobody]

/-- A module has a fault, or the modules behind it decide. -/
theorem fault_or_validateModules_cons (m : Module) (seen : List String) :
    (∃ e, m.Fault seen e) ∨ (m.name ≠ "" ∧ m.name ∉ seen ∧ m.factory ≠ "") ∧
      ∀ rest, validateModules seen (m :: rest) = validateModules (m.name :: seen) rest := by
  by_cases named : m.name = ""
  · exact .inl ⟨_, .unnamed named⟩
  · by_cases new : m.name ∈ seen
    · exact .inl ⟨_, .duplicate named new⟩
    · by_cases made : m.factory = ""
      · exact .inl ⟨_, .noFactory named new made⟩
      · refine .inr ⟨⟨named, new, made⟩, fun rest ↦ ?_⟩
        rw [validateModules, if_neg named, if_neg new, if_neg made]

theorem soundModules_cons_iff : SoundModules (m :: modules) ↔
    (m.name ≠ "" ∧ m.factory ≠ "") ∧ SoundModules modules ∧ ∀ m' ∈ modules, m'.name ≠ m.name := by
  constructor
  · rintro ⟨named, distinct, made⟩
    rw [List.map_cons, List.nodup_cons] at distinct
    obtain ⟨named, nameds⟩ := List.forall_mem_cons.mp named
    obtain ⟨made, mades⟩ := List.forall_mem_cons.mp made
    exact ⟨⟨named, made⟩, ⟨nameds, distinct.2, mades⟩,
      fun m' among same ↦ distinct.1 (same ▸ List.mem_map_of_mem among)⟩
  · rintro ⟨⟨named, made⟩, ⟨nameds, distinct, mades⟩, other⟩
    refine ⟨List.forall_mem_cons.mpr ⟨named, nameds⟩, ?_, List.forall_mem_cons.mpr ⟨made, mades⟩⟩
    rw [List.map_cons, List.nodup_cons]
    refine ⟨fun again ↦ ?_, distinct⟩
    obtain ⟨m', among, same⟩ := List.mem_map.mp again
    exact other m' among same

/-- Modules pass after others of some names if they are sound and have none of these names. -/
theorem validateModules_eq_ok_iff :
    validateModules seen modules = .ok () ↔ SoundModules modules ∧ ∀ m ∈ modules, m.name ∉ seen := by
  induction modules generalizing seen with
  | nil => exact ⟨fun _ ↦ ⟨⟨nofun, .nil, nofun⟩, nofun⟩, fun _ ↦ rfl⟩
  | cons m rest ih =>
    rw [soundModules_cons_iff, List.forall_mem_cons]
    rcases fault_or_validateModules_cons m seen with ⟨e, fault⟩ | ⟨⟨named, new, made⟩, next⟩
    · rw [validateModules_cons_of_fault fault]
      refine ⟨nofun, ?_⟩
      rintro ⟨⟨⟨named, made⟩, -⟩, new, -⟩
      exact absurd ⟨named, new, made⟩ fault.not_fine
    · simp only [next, ih, List.mem_cons, not_or]
      constructor
      · rintro ⟨sound, fresh⟩
        exact ⟨⟨⟨named, made⟩, sound, fun m' among ↦ (fresh m' among).1⟩, new,
          fun m' among ↦ (fresh m' among).2⟩
      · rintro ⟨⟨-, sound, other⟩, -, fresh⟩
        exact ⟨sound, fun m' among ↦ ⟨other m' among, fresh m' among⟩⟩

/-- Otherwise the error is that of the first module that does not pass. -/
theorem validateModules_eq_error_iff :
    validateModules seen modules = .error e ↔ ∃ before m after, modules = before ++ m :: after ∧
      validateModules seen before = .ok () ∧ m.Fault (before.map Module.name ++ seen) e := by
  induction modules generalizing seen with
  | nil =>
    refine ⟨nofun, ?_⟩
    rintro ⟨before, m, after, none, -⟩
    exact absurd none.symm (List.append_ne_nil_of_right_ne_nil _ (List.cons_ne_nil _ _))
  | cons m rest ih =>
    rcases fault_or_validateModules_cons m seen with ⟨e', fault⟩ | ⟨fine, next⟩
    · rw [validateModules_cons_of_fault fault]
      constructor
      · rintro ⟨⟩
        exact ⟨[], m, rest, rfl, rfl, fault⟩
      · rintro ⟨before, m', after, place, passed, fault'⟩
        cases before with
        | nil =>
          cases place
          rw [← validateModules_cons_of_fault fault rest, ← validateModules_cons_of_fault fault' rest]
          rfl
        | cons first before =>
          cases place
          rw [validateModules_cons_of_fault fault] at passed
          cases passed
    · rw [next, ih]
      constructor
      · rintro ⟨before, m', after, rfl, passed, fault⟩
        exact ⟨m :: before, m', after, rfl, (next before).trans passed, fault.of_perm List.perm_middle⟩
      · rintro ⟨before, m', after, place, passed, fault⟩
        cases before with
        | nil =>
          cases place
          exact absurd fine fault.not_fine
        | cons first before =>
          cases place
          exact ⟨before, m', after, rfl, (next before).symm.trans passed, fault.of_perm List.perm_middle.symm⟩

/-! ## Configurations -/

theorem Format.ofName?_eq_some_iff {name : String} {f : Format} : ofName? name = some f ↔ f.name = name := by
  constructor
  · intro found
    exact beq_iff_eq.mp (List.find?_some (p := fun f : Format ↦ f.name == name) found)
  · rintro rfl
    exact ofName?_name f

theorem Format.ofName?_eq_none_iff {name : String} : ofName? name = none ↔ ∀ f : Format, f.name ≠ name := by
  rw [Option.eq_none_iff_forall_ne_some]
  exact forall_congr' fun f ↦ not_congr ofName?_eq_some_iff

namespace Config

variable {c : Config}

/-- The first thing that is wrong with a configuration. -/
inductive Fault (c : Config) : ConfigError → Prop where
  /-- it has no workers -/
  | noThreads (idle : c.threads = 0) : Fault c .noThreads
  /-- it has no room for frames -/
  | noMessageSize (threads : c.threads ≠ 0) (narrow : c.maxMessageSize = 0) : Fault c .noMessageSize
  /-- it has workers and room, but its format is none -/
  | format (threads : c.threads ≠ 0) (room : c.maxMessageSize ≠ 0)
      (unknown : ∀ f : Format, f.name ≠ c.defaultFormat) :
    Fault c (.format (.unknownFormat c.defaultFormat))
  /-- a module has a fault, and all modules before it are sound -/
  | module {f : Format} {before after : List Module} {m : Module} {e : ConfigError}
      (threads : c.threads ≠ 0) (room : c.maxMessageSize ≠ 0) (known : f.name = c.defaultFormat)
      (place : c.modules = before ++ m :: after) (sound : SoundModules before)
      (fault : m.Fault (before.map Module.name) e) : Fault c e

theorem validate_eq_validateModules {f : Format} (threads : c.threads ≠ 0) (room : c.maxMessageSize ≠ 0)
    (known : f.name = c.defaultFormat) : c.validate = validateModules [] c.modules := by
  rw [validate, if_neg threads, if_neg room, Format.require, Format.ofName?_eq_some_iff.mpr known]

theorem Fault.validate_eq (fault : c.Fault e) : c.validate = .error e := by
  cases fault with
  | noThreads idle => rw [validate, if_pos idle]
  | noMessageSize threads narrow => rw [validate, if_neg threads, if_pos narrow]
  | format threads room unknown =>
    rw [validate, if_neg threads, if_neg room, Format.require, Format.ofName?_eq_none_iff.mpr unknown]
  | module threads room known place sound fault =>
    rw [validate_eq_validateModules threads room known, validateModules_eq_error_iff]
    exact ⟨_, _, _, place, validateModules_eq_ok_iff.mpr ⟨sound, fun _ _ ↦ List.not_mem_nil⟩,
      (List.append_nil _).symm ▸ fault⟩

/-- Something is wrong with a configuration, or it has all that it needs. -/
theorem fault_or_settings (c : Config) : (∃ e, c.Fault e) ∨ c.threads ≠ 0 ∧ c.maxMessageSize ≠ 0 ∧
    (∃ f : Format, f.name = c.defaultFormat) ∧ SoundModules c.modules := by
  by_cases threads : c.threads = 0
  · exact .inl ⟨_, .noThreads threads⟩
  by_cases room : c.maxMessageSize = 0
  · exact .inl ⟨_, .noMessageSize threads room⟩
  by_cases known : ∃ f : Format, f.name = c.defaultFormat
  · obtain ⟨f, known⟩ := known
    cases passed : validateModules [] c.modules with
    | ok _ => exact .inr ⟨threads, room, ⟨f, known⟩, (validateModules_eq_ok_iff.mp passed).1⟩
    | error e =>
      obtain ⟨before, m, after, place, passed, fault⟩ := validateModules_eq_error_iff.mp passed
      rw [List.append_nil] at fault
      exact .inl ⟨e, .module threads room known place (validateModules_eq_ok_iff.mp passed).1 fault⟩
  · exact .inl ⟨_, .format threads room (not_exists.mp known)⟩

/-- A configuration is valid if it has workers, room for frames, a format and sound modules. -/
theorem validate_eq_ok_iff : c.validate = .ok () ↔ c.threads ≠ 0 ∧ c.maxMessageSize ≠ 0 ∧
    (∃ f : Format, f.name = c.defaultFormat) ∧ SoundModules c.modules := by
  constructor
  · intro valid
    refine (fault_or_settings c).resolve_left ?_
    rintro ⟨e, fault⟩
    cases fault.validate_eq.symm.trans valid
  · rintro ⟨threads, room, ⟨f, known⟩, sound⟩
    rw [validate_eq_validateModules threads room known, validateModules_eq_ok_iff]
    exact ⟨sound, fun _ _ ↦ List.not_mem_nil⟩

/-- Otherwise the error is the first thing that is wrong with it. -/
theorem validate_eq_error_iff : c.validate = .error e ↔ c.Fault e := by
  refine ⟨fun failed ↦ ?_, Fault.validate_eq⟩
  rcases fault_or_settings c with ⟨e', fault⟩ | settings
  · cases fault.validate_eq.symm.trans failed
    exact fault
  · cases (validate_eq_ok_iff.mpr settings).symm.trans failed

end Config

end Troupe
