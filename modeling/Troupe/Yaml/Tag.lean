import Troupe.Decimal.Numeral
import Troupe.Text.Utf8
import Troupe.Yaml.Place

/-!
# Tags

A tag names the kind of a node by an address, which is a sequence of bytes and need not be a text.  An
address is written with ASCII characters and with escapes `%XX`.  Escapes come in groups that are shaped like
the bytes of one character, and a zero byte ends what is written.  `Sense.ofTag` says what a tag means for
the node behind it.
-/

namespace Troupe.Yaml

/-- A tag as it is written: the handle of its address, and the rest. -/
structure Tag where
  /-- the handle, empty for a whole address -/
  handle : String
  suffix : Bytes
deriving DecidableEq, Repr

/-! ## Written addresses -/

/-- A character of a tag; those of lists only where a whole address stands. -/
def isTagChar (address : Bool) (c : Char) : Bool :=
  isNameChar c || ";/?:@&=+$.%!~*'()".toList.contains c || (address && ",[]".toList.contains c)

def escapedByte? : List Char → Option (UInt8 × List Char)
  | '%' :: high :: low :: rest =>
    (Numeral.natural? 16 [high, low]).map fun n ↦ (UInt8.ofNat n, rest)
  | _ => none

/-- The number of bytes after a byte that leads a character. -/
def bytesAfter? (lead : UInt8) : Option Nat :=
  if lead < 0x80 then some 0
  else if lead < 0xC0 then none
  else if lead < 0xE0 then some 1
  else if lead < 0xF0 then some 2
  else if lead < 0xF8 then some 3
  else none

/-- The escapes of the `n` bytes after one that leads a character. -/
def laterBytes? : Nat → List Char → Option (Bytes × List Char)
  | 0, cs => some ([], cs)
  | n + 1, cs => do
    let (b, rest) ← escapedByte? cs
    if 0x80 ≤ b ∧ b < 0xC0 then
      let (bs, rest) ← laterBytes? n rest
      some (b :: bs, rest)
    else none

/-- The bytes of an escaped character.  Their values are not looked at beyond their shape. -/
def escapedBytes? (cs : List Char) : Option (Bytes × List Char) := do
  let (b, rest) ← escapedByte? cs
  let n ← bytesAfter? b
  let (bs, rest) ← laterBytes? n rest
  some (b :: bs, rest)

def tagBytes (address : Bool) : Nat → List Char → Option (Bytes × List Char)
  | 0, cs => some ([], cs)
  | _, [] => some ([], [])
  | fuel + 1, c :: rest =>
    if !isTagChar address c then some ([], c :: rest)
    else do
      let (bs, rest) ← if c = '%' then escapedBytes? (c :: rest) else some ([c.toUInt8], rest)
      let (more, rest) ← tagBytes address fuel rest
      some (bs ++ more, rest)

/-- What counts of written bytes: those before the first zero. -/
def beforeZero (bytes : Bytes) : Bytes := bytes.takeWhile (· != 0)

/-- Reads the tag at a place.  A bare mark is a tag of its own. -/
def tag (inFlow : Bool) (p : Place) : Option (Tag × Place) := do
  let (t, rest) ← (match p.rest with
    | '!' :: '<' :: after => do
      let (bytes, rest) ← tagBytes true after.length after
      if bytes.isEmpty || rest.head? != some '>' then none
      else some (⟨"", beforeZero bytes⟩, rest.tail)
    | _ :: after => do
      let name := after.takeWhile isNameChar
      let after := after.drop name.length
      if after.head? = some '!' then
        let (bytes, rest) ← tagBytes false after.length after.tail
        if bytes.isEmpty then none
        else some (⟨String.ofList ('!' :: name ++ ['!']), beforeZero bytes⟩, rest)
      else
        let (bytes, rest) ← tagBytes false after.length after
        let suffix := beforeZero (name.map Char.toUInt8 ++ bytes)
        some (if suffix.isEmpty then ⟨"", Text.encode "!"⟩ else ⟨"!", suffix⟩, rest)
    | [] => none : Option (Tag × List Char))
  if endsWord rest || (inFlow && rest.head? == some ',') then
    some (t, p.advance (p.rest.length - rest.length))
  else none

/-! ## Meanings -/

inductive Sense where
  | nothing
  | bool
  | integer
  | float
  | null
  /-- a kind of one's own, which no data has -/
  | own
  /-- a kind that is not known, whose characters are a text -/
  | unknown
deriving DecidableEq, Repr

/-- The address in front of the kinds that need no directive. -/
def coreAddress : Bytes := Text.encode "tag:yaml.org,2002:"

/-- What an address means.  The mark in front of a text makes a kind of one's own; in front of bytes that
are no text it says nothing. -/
def Sense.ofAddress : Bytes → Sense
  | [] => .unknown
  | b :: rest =>
    if b = 0x21 then if (Text.decode? rest).isSome then .own else .nothing
    else if b :: rest = coreAddress ++ Text.encode "bool" then .bool
    else if b :: rest = coreAddress ++ Text.encode "int" then .integer
    else if b :: rest = coreAddress ++ Text.encode "float" then .float
    else if b :: rest = coreAddress ++ Text.encode "null" then .null
    else .unknown

/-- What a tag means that may be left out. -/
def Sense.ofTag (tag : Option Bytes) : Sense := (tag.map Sense.ofAddress).getD .nothing

end Troupe.Yaml
