import Troupe.Actor.Dispatch
import Troupe.Actor.Error
import Troupe.Outcome
import Troupe.Value.Shape

/-!
# Functions and operations

What an actor runs when a message arrives.  A function answers with an outcome or panics, and a panic
becomes an error outcome.  A typed function states the shapes of its arguments and is run only if they
convert.

`μ` is what functions share beyond the state of their actor, such as the heap of values; `σ` is the state.
-/

namespace Troupe

inductive Reply where
  | returned (outcome : Outcome Value)
  | panicked (message : String)
deriving DecidableEq, Repr

namespace Reply

def value (v : Value) : Reply := .returned (.value v)

def error (message : String) : Reply := .returned (.error message)

/-- The outcome of a call made at a site, where panics are caught. -/
def caught (site : Site) : Reply → Outcome Value
  | .returned o => o
  | .panicked message => .error (DispatchError.panicked site message).message

@[simp] theorem caught_error (site : Site) (m : String) : (error m).caught site = .error m := rfl

end Reply

inductive Operation (μ σ : Type) where
  /-- looks at the state -/
  | reader (run : List Value → σ → μ → Reply × μ)
  /-- may replace the state -/
  | writer (run : List Value → σ → μ → Reply × σ × μ)

namespace Operation

variable {μ σ τ : Type}

def access : Operation μ σ → Access
  | .reader _ => .reader
  | .writer _ => .writer

def run : Operation μ σ → List Value → σ → μ → Reply × σ × μ
  | .reader f, args, s, m =>
    let (reply, m) := f args s m
    (reply, s, m)
  | .writer f, args, s, m => f args s m

def typedReader (shapes : List Shape) (f : Arguments shapes → σ → μ → Reply × μ) : Operation μ σ :=
  .reader fun args s m ↦
    match Arguments.unpack shapes args with
    | .ok xs => f xs s m
    | .error e => (.error e.message, m)

def typedWriter (shapes : List Shape) (f : Arguments shapes → σ → μ → Reply × σ × μ) :
    Operation μ σ :=
  .writer fun args s m ↦
    match Arguments.unpack shapes args with
    | .ok xs => f xs s m
    | .error e => (.error e.message, s, m)

/-- A function that does not touch the state, under a given access. -/
def stateless (access : Access) (f : List Value → μ → Reply × μ) : Operation μ σ :=
  match access with
  | .reader => .reader fun args _ m ↦ f args m
  | .writer => .writer fun args s m ↦
    let (reply, m) := f args m
    (reply, s, m)

/-- The same operation on a state that holds the state it works on. -/
def within (view : τ → σ) (put : σ → τ → τ) : Operation μ σ → Operation μ τ
  | .reader f => .reader fun args t m ↦ f args (view t) m
  | .writer f => .writer fun args t m ↦
    let (reply, s, m) := f args (view t) m
    (reply, put s t, m)

/-- Arguments that do not convert leave the state and all else alone. -/
theorem run_typedWriter_of_error {shapes : List Shape} {args : List Value} {e : ValueError}
    (h : Arguments.unpack shapes args = .error e) (f : Arguments shapes → σ → μ → Reply × σ × μ)
    (s : σ) (m : μ) : (typedWriter shapes f).run args s m = (.error e.message, s, m) := by
  simp [run, typedWriter, h]

end Operation

end Troupe
