import Troupe.Proofs.Actor.Serial

/-!
# Actors with typed operations

A table of readers and writers that state what arguments they take, as they are registered with an actor.
A reader only looks: its type lets it answer, and change neither state nor memory.  A writer may leave any
state behind, also when it answers with an error or panics.

A message is refused if the actor knows no operation of its name, or if its arguments do not unpack.  Such
a message may as well not have been sent: `serial_heard` says that the serial run of the others comes to
the same.
-/

namespace Troupe

variable {μ σ : Type}

namespace Entries

variable {α β : Type} (f : α → β)

/-- The same keys with other values. -/
def mapValues (es : Entries α) : Entries β := es.map fun e ↦ (e.1, f e.2)

theorem find?_mapValues (key : String) (es : Entries α) :
    find? key (mapValues f es) = (find? key es).map f := by
  induction es with
  | nil => rfl
  | cons e rest ih =>
    by_cases same : e.1 = key
    · simp [mapValues, find?, same]
    · simpa [mapValues, find?, same] using ih

theorem insert_mapValues (key : String) (value : α) (es : Entries α) :
    insert key (f value) (mapValues f es) = mapValues f (insert key value es) := by
  induction es with
  | nil => rfl
  | cons e rest ih =>
    simp only [mapValues, List.map_cons, insert] at ih ⊢
    split
    · rfl
    · split
      · rfl
      · rw [List.map_cons, ih]

/-- The values may be changed before or after they are put under their keys. -/
theorem ofList_mapValues (es : List (String × α)) :
    ofList (mapValues f es) = mapValues f (ofList es) := by
  have folded (acc : Entries α) :
      (mapValues f es).foldl (fun acc e ↦ insert e.1 e.2 acc) (mapValues f acc) =
        mapValues f (es.foldl (fun acc e ↦ insert e.1 e.2 acc) acc) := by
    induction es generalizing acc with
    | nil => rfl
    | cons e rest ih =>
      simp only [mapValues, List.map_cons, List.foldl_cons] at ih ⊢
      rw [← ih, ← mapValues, insert_mapValues, mapValues]
  exact folded []

end Entries

/-! ## Signatures -/

/-- What a function of a signature takes. -/
def Signature.Carrier : Signature → Type
  | .raw => List Value
  | .tuple shapes => Arguments shapes

/-- An argument list as what a function of a signature takes. -/
def Signature.unpack : (s : Signature) → List Value → Except ValueError s.Carrier
  | .raw, xs => .ok xs
  | .tuple shapes, xs => Arguments.unpack shapes xs

/-! ## Typed operations -/

/-- An operation as it is registered. -/
inductive Typed (μ σ : Type) where
  /-- looks at the state -/
  | reader (signature : Signature) (f : signature.Carrier → σ → μ → Reply)
  /-- may replace the state -/
  | writer (signature : Signature) (f : signature.Carrier → σ → μ → Reply × σ × μ)

namespace Typed

/-- The arguments that an operation takes. -/
def signature : Typed μ σ → Signature
  | .reader s _ | .writer s _ => s

/-- The operation that an actor runs. -/
def operation : Typed μ σ → Operation μ σ
  | .reader .raw f => .reader fun xs s m ↦ (f xs s m, m)
  | .reader (.tuple shapes) f => .typedReader shapes fun xs s m ↦ (f xs s m, m)
  | .writer .raw f => .writer f
  | .writer (.tuple shapes) f => .typedWriter shapes f

/-- A reader changes nothing. -/
theorem quiet_operation (o : Typed μ σ) : o.operation.Quiet := by
  intro reads arguments s m
  cases o with
  | reader signature f =>
    cases signature with
    | raw => rfl
    | tuple shapes =>
      cases unpacked : Arguments.unpack shapes arguments <;>
        simp [operation, Operation.typedReader, Operation.run, unpacked]
  | writer signature f => cases signature <;> cases reads

/-- Arguments that do not unpack are answered with the error, and change nothing. -/
theorem run_of_error {o : Typed μ σ} {arguments : List Value} {e : ValueError}
    (refused : o.signature.unpack arguments = .error e) (s : σ) (m : μ) :
    o.operation.run arguments s m = (.error e.message, s, m) := by
  cases o with
  | reader signature f =>
    cases signature with
    | raw => cases refused
    | tuple shapes =>
      have unpacked : Arguments.unpack shapes arguments = .error e := refused
      simp [operation, Operation.typedReader, Operation.run, unpacked]
  | writer signature f =>
    cases signature with
    | raw => cases refused
    | tuple shapes => exact Operation.run_typedWriter_of_error refused f s m

/-- The operations of an actor with a table of typed ones; the last of a name counts. -/
def operations (table : List (String × Typed μ σ)) : Entries (Operation μ σ) :=
  Entries.ofList (Entries.mapValues operation table)

/-- An actor with a table of typed operations on a state. -/
def actor (table : List (String × Typed μ σ)) (state : σ) : Actor μ σ :=
  .ofState (Entries.mapValues operation table) state

theorem find?_operations (table : List (String × Typed μ σ)) (name : String) :
    Entries.find? name (operations table) =
      (Entries.find? name (Entries.ofList table)).map operation := by
  rw [operations, Entries.ofList_mapValues, Entries.find?_mapValues]

end Typed

/-! ## Refused messages -/

section Refusal

variable (table : List (String × Typed μ σ))

/-- The error of a message that reaches no function. -/
def Cue.refusal? (cue : Cue) : Option String :=
  match Entries.find? cue.name (Entries.ofList table) with
  | none => some (DispatchError.unknownOperation cue.name).message
  | some o =>
    match o.signature.unpack cue.arguments with
    | .ok _ => none
    | .error e => some e.message

/-- The messages that reach a function. -/
def heard (cues : List Cue) : List Cue := cues.filter fun cue ↦ (cue.refusal? table).isNone

variable {table}

/-- A refused message is answered with its error, and changes nothing. -/
theorem Cue.play_of_refusal {cue : Cue} {message : String}
    (refused : cue.refusal? table = some message) (now : σ × μ) :
    cue.play (Typed.operations table) now = (.error message, now) := by
  rw [refusal?] at refused
  rw [play, Typed.find?_operations]
  cases found : Entries.find? cue.name (Entries.ofList table) with
  | none =>
    rw [found] at refused
    cases refused
    rfl
  | some o =>
    rw [found] at refused
    cases unpacked : o.signature.unpack cue.arguments with
    | ok xs => simp [unpacked] at refused
    | error e =>
      obtain rfl : e.message = message := by simpa [unpacked] using refused
      simp only [Option.map_some, Typed.run_of_error unpacked, Reply.caught_error]
      rfl

/-- The serial run of the messages that reach a function leaves what that of all messages leaves, and
comes to the same outcomes. -/
theorem serial_heard (cues : List Cue) (now : σ × μ) :
    serial (Typed.operations table) (heard table cues) now =
      ((((cues.zip (serial (Typed.operations table) cues now).1).filter fun e ↦
        (e.1.refusal? table).isNone).map Prod.snd), (serial (Typed.operations table) cues now).2) := by
  induction cues generalizing now with
  | nil => rfl
  | cons cue rest ih =>
    cases refused : cue.refusal? table with
    | none =>
      have next : heard table (cue :: rest) = cue :: heard table rest := by simp [heard, refused]
      simp [next, serial, ih, refused]
    | some message =>
      have next : heard table (cue :: rest) = heard table rest := by simp [heard, refused]
      simp [next, serial, ih, refused, Cue.play_of_refusal refused]

end Refusal

end Troupe
