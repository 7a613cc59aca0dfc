/-!
# Outcomes

What a call came to: nothing yet, a value, or an error with its message.  An outcome that is observed has
come to something, so there `undefined` counts as the null value.
-/

namespace Troupe

inductive Outcome (α : Type) where
  | undefined
  | value (v : α)
  | error (message : String)
deriving DecidableEq, Repr

namespace Outcome

variable {α β : Type}

def name : Outcome α → String
  | .undefined => "Undefined"
  | .value _ => "Value"
  | .error _ => "Error"

def isUndefined : Outcome α → Bool
  | .undefined => true
  | _ => false

def isValue : Outcome α → Bool
  | .value _ => true
  | _ => false

def isError : Outcome α → Bool
  | .error _ => true
  | _ => false

def value? : Outcome α → Option α
  | .value v => some v
  | _ => none

def error? : Outcome α → Option String
  | .error message => some message
  | _ => none

def ofExcept : Except String α → Outcome α
  | .ok v => .value v
  | .error message => .error message

/-- The outcome as observed: `null` stands for a value that is not there. -/
def observe (null : α) : Outcome α → Except String α
  | .undefined => .ok null
  | .value v => .ok v
  | .error message => .error message

/-- The outcome as stored once it is final: an undefined one becomes the null value. -/
def settle (null : α) : Outcome α → Outcome α
  | .undefined => .value null
  | o => o

def map (f : α → β) : Outcome α → Outcome β
  | .undefined => .undefined
  | .value v => .value (f v)
  | .error message => .error message

def equal (valuesEqual : α → α → Bool) : Outcome α → Outcome α → Bool
  | .undefined, .undefined => true
  | .value v, .value w => valuesEqual v w
  | .error m, .error n => m == n
  | _, _ => false

def text (valueText : α → String) (quoted : String → String) (o : Outcome α) : String :=
  o.name ++ "(" ++
    (match o with
      | .undefined => ""
      | .value v => valueText v
      | .error message => quoted message) ++ ")"

end Outcome

end Troupe
