/-!
# Characters of YAML

The classes of characters that the layout of a YAML text depends on.
-/

namespace Troupe.Yaml

def isBreak (c : Char) : Bool :=
  c == '\n' || c == '\r' || c == '\u0085' || c == '\u2028' || c == '\u2029'

def isBlank (c : Char) : Bool := c == ' ' || c == '\t'

def byteOrderMark : Char := '\uFEFF'

/-- A character that may stand in a text unescaped when it is written. -/
def isPrintable (c : Char) : Bool :=
  let n := c.toNat
  n == 0x0A || (0x20 ≤ n && n ≤ 0x7E) || (0xA0 ≤ n && c != byteOrderMark && n != 0xFFFE && n != 0xFFFF)

/-- A character that may stand in a text that is read. -/
def isReadable (c : Char) : Bool :=
  let n := c.toNat
  n == 0x09 || n == 0x0A || n == 0x0D || (0x20 ≤ n && n ≤ 0x7E) || n == 0x85
    || (0xA0 ≤ n && n ≤ 0xFFFD) || 0x10000 ≤ n

def endsWord : List Char → Bool
  | [] => true
  | c :: _ => isBlank c || isBreak c

def endsLine : List Char → Bool
  | [] => true
  | c :: _ => isBreak c

def isNameChar (c : Char) : Bool := c.isAlphanum || c == '_' || c == '-'

end Troupe.Yaml
