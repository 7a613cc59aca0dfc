import Troupe.Data.Basic

/-!
# What can go wrong with arguments and entries

The errors of typed access to lists and maps, each with its cause and one message.
-/

namespace Troupe

inductive ValueError where
  | invalidIndex (index : UInt64)
  | invalidArgumentCast (index : UInt64) (found wanted : Kind)
  | invalidKeyCast (key : String) (found wanted : Kind)
  | invalidKey (key : String)
  | arity (expected given : Nat)
deriving DecidableEq, Repr

def ValueError.name : ValueError → String
  | .invalidIndex _ => "InvalidIndex"
  | .invalidArgumentCast _ _ _ => "InvalidArgumentCast"
  | .invalidKeyCast _ _ _ => "InvalidKeyCast"
  | .invalidKey _ => "InvalidKey"
  | .arity _ _ => "Arity"

def ValueError.message : ValueError → String
  | .invalidIndex index => "invalid index in argument " ++ toString index.toNat
  | .invalidArgumentCast index found wanted =>
    "invalid cast in argument " ++ toString index.toNat ++ " from type " ++ found.name
      ++ " to " ++ wanted.name
  | .invalidKeyCast key found wanted =>
    "invalid cast in key " ++ key ++ " from type " ++ found.name ++ " to " ++ wanted.name
  | .invalidKey key => "invalid key " ++ key
  | .arity expected given =>
    "expected " ++ toString expected ++ " arguments but " ++ toString given ++ " were given"

end Troupe
