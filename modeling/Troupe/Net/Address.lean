import Troupe.Decimal.Numeral

/-!
# Addresses

The addresses at which a module can be served: a host and a port behind the last colon.  A host is a number
of 32 bits, which is written in one to four parts; zero stands for all interfaces of the machine.  The
machine itself may be called by its name, in letters of either case.  Long hosts, of eight groups, count as
far as they stand for all interfaces or wrap a host of 32 bits.  Without links to other machines every host
of 32 bits can be listened at, so only what is no address is refused.
-/

namespace Troupe.Net

structure Address where
  /-- the host; zero stands for all interfaces -/
  host : UInt32
  /-- the port; zero stands for any free one -/
  port : UInt16
deriving DecidableEq, Repr

namespace Address

/-! ## Hosts in parts -/

/-- A part of a host: a numeral in decimal, after `0` in octal and after `0x` in hexadecimal. -/
def part? (s : String) : Option Nat :=
  match s.toList with
  | ['0'] => some 0
  | '0' :: 'x' :: digits | '0' :: 'X' :: digits => Numeral.natural? 16 digits
  | '0' :: digits => Numeral.natural? 8 digits
  | digits => Numeral.natural? 10 digits

/-- The number of so many bytes that the parts make up: each part but the last is a byte, and the last fills
the bytes that are left. -/
def ofParts? : Nat → List Nat → Option Nat
  | bytes + 1, [n] => if n < 1 <<< (8 * (bytes + 1)) then some n else none
  | bytes + 1, n :: rest =>
    if n < 256 then (ofParts? bytes rest).map (n <<< (8 * bytes) + ·) else none
  | _, _ => none

def inParts? (s : String) : Option Nat := do
  let parts ← (s.splitOn ".").mapM part?
  ofParts? 4 parts

/-! ## Long hosts -/

def octet? (s : String) : Option Nat := do
  let n ← Numeral.natural? 10 s.toList
  if n < 256 ∧ toString n = s then some n else none

/-- A group of a long host: up to four hexadecimal digits. -/
def group? (s : String) : Option Nat := if s.length ≤ 4 then Numeral.natural? 16 s.toList else none

/-- The last two groups of a long host, written as four bytes. -/
def lastGroups? (s : String) : Option (List Nat) :=
  match (s.splitOn ".").mapM octet? with
  | some [a, b, c, d] => some [256 * a + b, 256 * c + d]
  | _ => none

/-- The groups of the pieces between colons.  Where the host ends, the last piece may be four bytes. -/
def pieces? (atEnd : Bool) : List String → Option (List Nat)
  | [] => some []
  | s :: rest => do
    let first ← (group? s).map ([·]) <|> if atEnd && rest.isEmpty then lastGroups? s else none
    (pieces? atEnd rest).map (first ++ ·)

/-- The groups of a stretch of a long host, which may be empty. -/
def groups? (atEnd : Bool) (s : String) : Option (List Nat) :=
  if s.isEmpty then some [] else pieces? atEnd (s.splitOn ":")

/-- The eight groups of a long host.  Two colons leave out groups of zeros, one at least. -/
def long? (s : String) : Option (List Nat) :=
  match s.splitOn "::" with
  | [whole] => (groups? true whole).filter (·.length == 8)
  | [before, after] => do
    let before ← groups? false before
    let after ← groups? true after
    let zeros := 8 - before.length - after.length
    if zeros = 0 then none else some (before ++ List.replicate zeros 0 ++ after)
  | _ => none

/-- The host of 32 bits that a long host stands for. -/
def inGroups? (s : String) : Option Nat :=
  match long? s with
  | some [0, 0, 0, 0, 0, 0xFFFF, high, low] => some (0x10000 * high + low)
  | some gs => if gs.all (· == 0) then some 0 else none
  | none => none

/-! ## Addresses -/

def named? (s : String) : Option Nat :=
  if s.map Char.toLower = "localhost" then some 0x7F000001 else none

def host? (s : String) : Option Nat := named? s <|> inParts? s <|> inGroups? s

/-- The address of a text.  A long host may stand in brackets, and its port has no sign then. -/
def ofText? (s : String) : Option Address :=
  match (s.splitOn ":").reverse with
  | port :: before => do
    let host := (":".intercalate before.reverse).toList
    let sign := port.toList.head? == some '+'
    let n ← (if !sign && host.head? == some '[' && host.getLast? == some ']' then
        inGroups? (String.ofList host.tail.dropLast)
      else host? (String.ofList host))
    let port ← Numeral.uint64? port
    if port.toNat < 0x10000 then some ⟨UInt32.ofNat n, port.toUInt16⟩ else none
  | [] => none

/-- Two listeners get in each other's way: they ask for one port on hosts that overlap. -/
def conflicts (a b : Address) : Bool :=
  a.port != 0 && a.port == b.port && (a.host == b.host || a.host == 0 || b.host == 0)

end Address

end Troupe.Net
