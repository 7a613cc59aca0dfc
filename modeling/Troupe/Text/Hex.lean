import Troupe.Decimal.Numeral
import Troupe.Text.Utf8

/-!
# Hexadecimal texts

Bytes and words in lower-case hexadecimal digits.  Reading takes letters of either case.
-/

namespace Troupe.Hex

def ofByte (b : UInt8) : List Char := [Nat.digitChar (b.toNat / 16), Nat.digitChar (b.toNat % 16)]

def ofBytes (bytes : Bytes) : String := String.ofList (bytes.flatMap ofByte)

def ofWord (w : UInt64) : String :=
  let digits := Nat.toDigits 16 w.toNat
  String.ofList (List.replicate (16 - digits.length) '0' ++ digits)

def bytes? : List Char → Option Bytes
  | [] => some []
  | [_] => none
  | a :: b :: rest => do
    let high ← Numeral.digitValue? a
    let low ← Numeral.digitValue? b
    let bytes ← bytes? rest
    some (UInt8.ofNat (16 * high + low) :: bytes)

def natural (cs : List Char) : Nat := cs.foldl (fun n c ↦ 16 * n + (Numeral.digitValue? c).getD 0) 0

end Troupe.Hex
