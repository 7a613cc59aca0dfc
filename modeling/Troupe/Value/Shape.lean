import Troupe.Decimal.Numeral
import Troupe.Error
import Troupe.Value.Heap

/-!
# Typed access

A `Shape` says what a caller wants of a value, and its `Carrier` is the type of the answer.
`Shape.extract?` converts leniently: texts are read as numbers and truth values, integers that are not
negative widen to unsigned ones, and integers widen to floating-point numbers.  `unpack` applies a list of
shapes to an argument list, checking the number of arguments first.
-/

namespace Troupe

inductive Shape where
  | value
  | unit
  | bool
  | int64
  | int32
  | uint64
  | uint32
  | size
  | float
  | string
  | list
  | map
  /-- the inner shape, or nothing for a null value -/
  | option (inner : Shape)
deriving DecidableEq, Repr

namespace Shape

def Carrier : Shape → Type
  | .value => Value
  | .unit => Unit
  | .bool => Bool
  | .int64 => Int64
  | .int32 => Int32
  | .uint64 => UInt64
  | .uint32 => UInt32
  | .size => UInt64
  | .float => Binary64
  | .string => String
  | .list => ListRef
  | .map => MapRef
  | .option inner => Option inner.Carrier

def kind : Shape → Kind
  | .value | .unit => .null
  | .bool => .bool
  | .int64 | .int32 => .int
  | .uint64 | .uint32 | .size => .uint
  | .float => .float
  | .string => .string
  | .list => .list
  | .map => .map
  | .option inner => inner.kind

def bool? : String → Option Bool
  | "true" => some true
  | "false" => some false
  | _ => none

/-- The signed integer that a value holds or spells. -/
def int64? : Value → Option Int64
  | .int i => some i
  | .string s => Numeral.int64? s
  | _ => none

/-- The unsigned integer that a value holds or spells. -/
def uint64? : Value → Option UInt64
  | .int i => if 0 ≤ i.toInt then some (UInt64.ofNat i.toInt.toNat) else none
  | .uint u => some u
  | .string s => Numeral.uint64? s
  | _ => none

/-- The floating-point number that a value holds, widens to or spells. -/
def float? : Value → Option Binary64
  | .int i => some (Binary64.ofInt i.toInt)
  | .uint u => some (Binary64.ofNat u.toNat)
  | .float x => some x
  | .string s => Numeral.float? s
  | _ => none

/-- What a value yields for a shape, if it converts. -/
def extract? : (s : Shape) → Value → Option s.Carrier
  | .value, v => some v
  | .unit, v => if v = .null then some () else none
  | .bool, .bool b => some b
  | .bool, .string s => bool? s
  | .bool, _ => none
  | .int64, v => int64? v
  | .int32, v => (int64? v).bind fun i ↦
    if -0x80000000 ≤ i.toInt ∧ i.toInt < 0x80000000 then some (Int32.ofInt i.toInt) else none
  | .uint64, v => uint64? v
  | .uint32, v => (uint64? v).bind fun u ↦
    if u.toNat < 0x100000000 then some (UInt32.ofNat u.toNat) else none
  | .size, v => uint64? v
  | .float, v => float? v
  | .string, v => v.asString?
  | .list, .list r => some r
  | .list, _ => none
  | .map, .map r => some r
  | .map, _ => none
  | .option inner, v =>
    match v with
    | .null => some none
    | v => (inner.extract? v).map some

/-- What was extracted, as a value again. -/
def toValue : (s : Shape) → s.Carrier → Value
  | .value, v => v
  | .unit, _ => .null
  | .bool, b => .bool b
  | .int64, i => .int i
  | .int32, i => .int (Int64.ofInt (Int32.toInt i))
  | .uint64, u => .ofUInt64 u
  | .uint32, u => .ofNat (UInt32.toNat u)
  | .size, u => .ofUInt64 u
  | .float, x => .float x
  | .string, s => .string s
  | .list, r => .list r
  | .map, r => .map r
  | .option _, none => .null
  | .option inner, some x => inner.toValue x

def ofName? (name : String) : Option Shape :=
  let plain : List (String × Shape) :=
    [("value", .value), ("unit", .unit), ("bool", .bool), ("i64", .int64), ("i32", .int32),
      ("u64", .uint64), ("u32", .uint32), ("usize", .size), ("f64", .float), ("string", .string),
      ("list", .list), ("map", .map)]
  match name.splitOn ":" with
  | ["option", inner] => (plain.lookup inner).map .option
  | _ => plain.lookup name

end Shape

inductive Signature where
  /-- the arguments as they are, as a list -/
  | raw
  /-- one argument of each shape -/
  | tuple (shapes : List Shape)
deriving DecidableEq, Repr

/-- The signature that a text spells: names of shapes between commas, or `raw`. -/
def Signature.ofText (text : String) : Signature :=
  if text = "raw" then .raw
  else if text = "" then .tuple []
  else .tuple ((text.splitOn ",").filterMap Shape.ofName?)

/-! ## Arguments -/

def Entries.get (es : Entries Value) (key : String) (s : Shape) : Except ValueError s.Carrier :=
  match Entries.find? key es with
  | none => .error (.invalidKey key)
  | some v =>
    match s.extract? v with
    | none => .error (.invalidKeyCast key v.kind s.kind)
    | some x => .ok x

/-- The element at an unsigned index as a shape.  The index is taken as a signed position of the same
bits. -/
def Sequence.get (xs : List Value) (index : UInt64) (s : Shape) : Except ValueError s.Carrier :=
  match Sequence.find? index.toInt64 xs with
  | none => .error (.invalidIndex index)
  | some v =>
    match s.extract? v with
    | none => .error (.invalidArgumentCast index v.kind s.kind)
    | some x => .ok x

/-- Answers for each of a list of shapes. -/
def Arguments : List Shape → Type
  | [] => Unit
  | s :: rest => s.Carrier × Arguments rest

namespace Arguments

/-- The elements from an index on, each as its shape, up to the first that does not convert. -/
def collect (xs : List Value) : Nat → (shapes : List Shape) → Except ValueError (Arguments shapes)
  | _, [] => .ok ()
  | i, s :: rest => do
    let x ← Sequence.get xs (UInt64.ofNat i) s
    let others ← collect xs (i + 1) rest
    pure (x, others)

/-- All elements of an argument list, each as its shape, once their number is right. -/
def unpack (shapes : List Shape) (xs : List Value) : Except ValueError (Arguments shapes) :=
  if xs.length = shapes.length then collect xs 0 shapes
  else .error (.arity shapes.length xs.length)

def toValues : (shapes : List Shape) → Arguments shapes → List Value
  | [], _ => []
  | s :: rest, (x, others) => s.toValue x :: toValues rest others

end Arguments

def Signature.check : Signature → List Value → Except ValueError (List Value)
  | .raw, xs => .ok xs
  | .tuple shapes, xs => (Arguments.unpack shapes xs).map (Arguments.toValues shapes)

end Troupe
