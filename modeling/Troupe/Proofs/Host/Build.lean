import Troupe.Host
import Troupe.Proofs.Config
import Troupe.Proofs.Value.Copy

/-!
# Hosts are built module by module

A host builds its modules in the order of the configuration, each with its factory, and the mailbox of each
becomes a member of one group under the name of the module (`Host.Started`), up to the first module for which
there is no factory, or whose factory refuses it (`Host.started_or_refused`).  A factory knows nothing of that
group (`Factory.Spares`), and a valid configuration gives no name twice.  So what is found in the group under
the name of a module is the mailbox that its factory made, and nothing else is found there
(`Host.Started.find?_name`, `Host.Started.find?_other`).
-/

namespace Troupe

variable {ι σ : Type}

/-- The modules of a valid configuration have different names. -/
theorem Config.nodup_names {c : Config} (valid : c.validate = .ok ()) : (c.modules.map Module.name).Nodup :=
  (validate_eq_ok_iff.mp valid).2.2.2.distinct

/-! ## Factories -/

namespace Factory

/-- A factory builds an actor from a configuration, wherever it is stored. -/
def Accepts (f : Factory ι σ) (configuration : Entries Data) : Prop :=
  ∀ r sys, sys.memory.heap.Stands (.map r) (.map configuration) → ∃ mailbox, (f r sys).1 = .ok mailbox

/-- A factory leaves a group that is there as it is. -/
def Spares (f : Factory ι σ) (group : Nat) : Prop :=
  ∀ r sys, group < sys.groups.size → (f r sys).2.groups[group]? = sys.groups[group]?

end Factory

/-- A factory that only makes an actor leaves all groups as they are. -/
theorem Stock.spares_factoryOf {α : Type} (read : Heap → MapRef → Except ValueError α)
    (build : α → StockActor ι) (group : Nat) : Factory.Spares (Stock.factoryOf read build) group := by
  intro r sys _
  rw [Stock.factoryOf]
  split <;> rfl

/-! ## Insertions one after the other -/

namespace Entries

variable {α β : Type} (key : β → String) (value : β → α)

/-- What is inserted under other keys is not found. -/
theorem find?_foldl_insert_of_not_mem {bs : List β} {k : String} (other : k ∉ bs.map key) (es : Entries α) :
    find? k (bs.foldl (fun es b ↦ insert (key b) (value b) es) es) = find? k es := by
  induction bs generalizing es with
  | nil => rfl
  | cons b rest ih =>
    rw [List.map_cons, List.mem_cons, not_or] at other
    rw [List.foldl_cons, ih other.2, find?_insert_of_ne other.1]

/-- What is inserted under different keys is all found. -/
theorem find?_foldl_insert_of_mem {bs : List β} (nodup : (bs.map key).Nodup) {b : β} (among : b ∈ bs)
    (es : Entries α) :
    find? (key b) (bs.foldl (fun es b ↦ insert (key b) (value b) es) es) = some (value b) := by
  induction bs generalizing es with
  | nil => cases among
  | cons first rest ih =>
    rw [List.map_cons, List.nodup_cons] at nodup
    rw [List.foldl_cons]
    rcases List.mem_cons.mp among with rfl | later
    · rw [find?_foldl_insert_of_not_mem key value nodup.1, find?_insert_self]
    · exact ih nodup.2 later _

end Entries

namespace Host

/-! ## Modules that were started -/

/-- The configuration of a module is stored in a map of its own. -/
def stored (m : Module) (sys : System ι σ) : MapRef × System ι σ :=
  let (configuration, memory) := sys.memory.onHeap fun h ↦
    let (entries, h) := h.allocEntries m.configuration
    h.newMap entries
  (configuration, { sys with memory })

theorem stands_stored (m : Module) (sys : System ι σ) :
    (stored m sys).2.memory.heap.Stands (.map (stored m sys).1) (.map m.configuration) :=
  Heap.stands_alloc (.map m.configuration) sys.memory.heap (.refl _)

/-- A module is started if its factory makes a mailbox. -/
theorem start_of_makes {registry : Registry ι σ} (group : Mailbox) {mailbox : Mailbox} {m : Module}
    {factory : Factory ι σ} {sys made : System ι σ}
    (known : Entries.find? m.factory registry = some factory)
    (makes : factory (stored m sys).1 (stored m sys).2 = (.ok mailbox, made)) :
    start registry group m sys = .ok (made.onGroup group.index (Entries.insert m.name mailbox)) := by
  have instantiated : registry.instantiate m.factory (stored m sys).1 (stored m sys).2 =
      (.ok mailbox, made) := by
    rw [Registry.instantiate, known]
    exact makes
  rw [stored] at instantiated
  simp only [start, instantiated]

/-- The host cannot make a module, for a cause. -/
inductive Refuses (registry : Registry ι σ) (m : Module) (sys : System ι σ) : String → Prop where
  /-- there is no such factory -/
  | unknown (nobody : Entries.find? m.factory registry = none) :
    Refuses registry m sys (DispatchError.unknownFactory m.factory).message
  /-- the factory answers with an error -/
  | refused {factory : Factory ι σ} {cause : String} (known : Entries.find? m.factory registry = some factory)
      (answer : (factory (stored m sys).1 (stored m sys).2).1 = .error cause) : Refuses registry m sys cause

/-- A module that is refused ends the start with its error. -/
theorem start_of_refuses {registry : Registry ι σ} {m : Module} {sys : System ι σ} {cause : String}
    (group : Mailbox) (refuses : Refuses registry m sys cause) :
    start registry group m sys = .error (.instantiate m.name cause) := by
  have answered : (registry.instantiate m.factory (stored m sys).1 (stored m sys).2).1 = .error cause := by
    cases refuses with
    | unknown nobody => rw [Registry.instantiate, nobody]
    | refused known answer => rw [Registry.instantiate, known, answer]
  obtain ⟨after, answered⟩ : ∃ after,
      registry.instantiate m.factory (stored m sys).1 (stored m sys).2 = (.error cause, after) :=
    ⟨_, Prod.ext answered rfl⟩
  rw [stored] at answered
  simp only [start, answered]

/-- A module is made by its factory, or it is refused. -/
theorem makes_or_refuses (registry : Registry ι σ) (m : Module) (sys : System ι σ) :
    (∃ factory mailbox made, Entries.find? m.factory registry = some factory ∧
      factory (stored m sys).1 (stored m sys).2 = (.ok mailbox, made)) ∨
    ∃ cause, Refuses registry m sys cause := by
  cases known : Entries.find? m.factory registry with
  | none => exact .inr ⟨_, .unknown known⟩
  | some factory =>
    cases answer : (factory (stored m sys).1 (stored m sys).2).1 with
    | ok mailbox => exact .inl ⟨factory, mailbox, _, rfl, Prod.ext answer rfl⟩
    | error cause => exact .inr ⟨cause, .refused known answer⟩

/-- Modules with the mailboxes that their factories made of them, one after the other, and the systems before
the first and after the last. -/
inductive Started (registry : Registry ι σ) (group : Nat) :
    List (Module × Mailbox) → System ι σ → System ι σ → Prop where
  | none (sys : System ι σ) : Started registry group [] sys sys
  | next {m : Module} {mailbox : Mailbox} {rest : List (Module × Mailbox)} {factory : Factory ι σ}
      {sys made sys' : System ι σ} (known : Entries.find? m.factory registry = some factory)
      (makes : factory (stored m sys).1 (stored m sys).2 = (.ok mailbox, made))
      (more : Started registry group rest (made.onGroup group (Entries.insert m.name mailbox)) sys') :
      Started registry group ((m, mailbox) :: rest) sys sys'

/-- Either all modules are started, or those before the first one that is refused. -/
theorem started_or_refused (registry : Registry ι σ) (group : Mailbox) (modules : List Module)
    (sys : System ι σ) :
    (∃ built sys', startAll registry group modules sys = .ok sys' ∧ built.map Prod.fst = modules ∧
      Started registry group.index built sys sys') ∨
    ∃ built sys' m after cause, modules = built.map Prod.fst ++ m :: after ∧
      Started registry group.index built sys sys' ∧ Refuses registry m sys' cause ∧
      startAll registry group modules sys = .error (.instantiate m.name cause) := by
  induction modules generalizing sys with
  | nil => exact .inl ⟨[], sys, rfl, rfl, .none sys⟩
  | cons m rest ih =>
    rcases makes_or_refuses registry m sys with ⟨factory, mailbox, made, known, makes⟩ | ⟨cause, refuses⟩
    · have first : startAll registry group (m :: rest) sys =
          startAll registry group rest (made.onGroup group.index (Entries.insert m.name mailbox)) := by
        rw [startAll, start_of_makes group known makes]
      rw [first]
      rcases ih (made.onGroup group.index (Entries.insert m.name mailbox)) with
        ⟨built, sys', starts, rfl, more⟩ | ⟨built, sys', m', after, cause, rfl, more, refuses, starts⟩
      · exact .inl ⟨(m, mailbox) :: built, sys', starts, rfl, .next known makes more⟩
      · exact .inr ⟨(m, mailbox) :: built, sys', m', after, cause, rfl, .next known makes more, refuses,
          starts⟩
    · refine .inr ⟨[], sys, m, rest, cause, rfl, .none sys, refuses, ?_⟩
      rw [startAll, start_of_refuses group refuses]

/-- If each module is accepted by its factory, then all modules are started. -/
theorem exists_started {registry : Registry ι σ} (group : Mailbox) {modules : List Module}
    (accepted : ∀ m ∈ modules, ∃ factory, Entries.find? m.factory registry = some factory ∧
      Factory.Accepts factory m.configuration) (sys : System ι σ) :
    ∃ built sys', startAll registry group modules sys = .ok sys' ∧ built.map Prod.fst = modules ∧
      Started registry group.index built sys sys' := by
  refine (started_or_refused registry group modules sys).resolve_right ?_
  rintro ⟨built, sys', m, after, cause, rfl, -, refuses, -⟩
  obtain ⟨factory, known, accepts⟩ := accepted m (List.mem_append_right _ List.mem_cons_self)
  obtain ⟨mailbox, makes⟩ := accepts _ _ (stands_stored m sys')
  cases refuses with
  | unknown nobody => cases nobody.symm.trans known
  | refused known' answer =>
    obtain rfl := Option.some.inj (known.symm.trans known')
    cases makes.symm.trans answer

/-! ## What is found in the group -/

namespace Started

variable {registry : Registry ι σ} {group : Nat} {built : List (Module × Mailbox)} {sys sys' : System ι σ}

/-- The members of the group are those before and one for each module. -/
theorem members (h : Started registry group built sys sys') (there : group < sys.groups.size)
    (spares : ∀ m ∈ built.map Prod.fst, ∀ factory, Entries.find? m.factory registry = some factory →
      Factory.Spares factory group) :
    sys'.members group =
      built.foldl (fun es b ↦ Entries.insert b.1.name b.2 es) (sys.members group) := by
  induction h with
  | none sys => rfl
  | @next m mailbox rest factory sys made sys' known makes more ih =>
    have same : made.groups[group]? = sys.groups[group]? := by
      have spared := spares m List.mem_cons_self factory known (stored m sys).1 (stored m sys).2 there
      rwa [makes] at spared
    have still : group < made.groups.size := by
      have found := Array.getElem?_eq_getElem there
      exact (Array.getElem?_eq_some_iff.mp (same.trans found)).1
    have one : (made.onGroup group (Entries.insert m.name mailbox)).members group =
        Entries.insert m.name mailbox (sys.members group) := by
      rw [System.members, System.members, Array.getD_eq_getD_getElem?, Array.getD_eq_getD_getElem?, ← same,
        System.onGroup, Array.getElem?_modify, if_pos rfl, Array.getElem?_eq_getElem still]
      rfl
    have later := ih (by rw [System.onGroup, Array.size_modify]; exact still)
      fun m' listed ↦ spares m' (List.mem_cons_of_mem _ listed)
    rw [later, one, List.foldl_cons]

section Found

variable (h : Started registry group built sys sys') (there : group < sys.groups.size)
  (spares : ∀ m ∈ built.map Prod.fst, ∀ factory, Entries.find? m.factory registry = some factory →
    Factory.Spares factory group)

include h there spares

/-- Under the name of a module its mailbox is found. -/
theorem find?_name (nodup : (built.map fun b ↦ b.1.name).Nodup) {m : Module} {mailbox : Mailbox}
    (among : (m, mailbox) ∈ built) : Entries.find? m.name (sys'.members group) = some mailbox := by
  rw [h.members there spares]
  exact Entries.find?_foldl_insert_of_mem (fun b : Module × Mailbox ↦ b.1.name) Prod.snd nodup among _

/-- Under any other name is found what was found before. -/
theorem find?_other {name : String} (other : name ∉ built.map fun b ↦ b.1.name) :
    Entries.find? name (sys'.members group) = Entries.find? name (sys.members group) := by
  rw [h.members there spares]
  exact Entries.find?_foldl_insert_of_not_mem (fun b : Module × Mailbox ↦ b.1.name) Prod.snd other _

end Found

end Started

end Host

end Troupe
