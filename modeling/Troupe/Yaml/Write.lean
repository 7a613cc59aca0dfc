import Troupe.Decimal.Notation
import Troupe.Text.Utf8
import Troupe.Yaml.Style

/-!
# Writing YAML

Data is written in block style: one line for each item and each key, nested data two columns further in,
and lists under a key in the column of the key.  Empty lists and maps are written as `[]` and `{}`.  Every
function here writes up to and with the end of the line.
-/

namespace Troupe.Yaml

/-- Numbers are written with the fewest digits that identify them, positionally from `10 ^ -5` and below
`10 ^ 16`, otherwise with an exponent; a whole number ends in `.0`. -/
def floatNotation : Notation where
  positionalFrom := some (-5)
  positionalBelow := some 16
  pointZero := true
  plusSign := false
  tie := .toEven
  nan := ".nan"
  infinity := ".inf"
  minusInfinity := "-.inf"

def spaces (n : Nat) : List Char := List.replicate n ' '

/-! ## Texts -/

/-- The characters between single quotes: quotes are doubled, and lines start at the indentation. -/
def singleBody (indent : Nat) : Bool → List Char → List Char
  | atStart, [] => if atStart then spaces indent else []
  | atStart, c :: rest =>
    if isBreak c then c :: singleBody indent true rest
    else
      (if atStart then spaces indent else []) ++ (if c = '\'' then ['\'', '\''] else [c])
        ++ singleBody indent false rest

/-- The upper-case hexadecimal digits of a number, at least `width` of them. -/
def hexDigits (width n : Nat) : List Char :=
  let digits := (Nat.toDigits 16 n).map Char.toUpper
  List.replicate (width - digits.length) '0' ++ digits

/-- The escape of a character, after its backslash. -/
def escape (c : Char) : List Char :=
  match c.toNat with
  | 0x00 => ['0']
  | 0x07 => ['a']
  | 0x08 => ['b']
  | 0x09 => ['t']
  | 0x0A => ['n']
  | 0x0B => ['v']
  | 0x0C => ['f']
  | 0x0D => ['r']
  | 0x1B => ['e']
  | 0x22 => ['"']
  | 0x5C => ['\\']
  | 0x85 => ['N']
  | 0xA0 => ['_']
  | 0x2028 => ['L']
  | 0x2029 => ['P']
  | n =>
    if n < 0x100 then 'x' :: hexDigits 2 n
    else if n < 0x10000 then 'u' :: hexDigits 4 n
    else 'U' :: hexDigits 8 n

def doubleBody (cs : List Char) : List Char :=
  cs.flatMap fun c ↦
    if !isPrintable c || isBreak c || c == '"' || c == '\\' then '\\' :: escape c else [c]

/-- The lines of a block, each starting at the indentation unless it is empty. -/
def literalBody (indent : Nat) : Bool → List Char → List Char
  | atStart, [] => if atStart then [] else ['\n']
  | atStart, c :: rest =>
    if isBreak c then c :: literalBody indent true rest
    else (if atStart then spaces indent else []) ++ c :: literalBody indent false rest

/-- Which of the line ends at the end of a block count: none, one, or all of them. -/
def chompMark (cs : List Char) : List Char :=
  match cs.reverse with
  | [] => ['-']
  | [c] => if isBreak c then ['+'] else ['-']
  | c :: d :: _ => if isBreak c then if isBreak d then ['+'] else [] else ['-']

/-- The header of a block.  The indentation is stated if the first line does not show it. -/
def blockHeader (cs : List Char) : List Char :=
  let hint := match cs with
    | c :: _ => if c = ' ' ∨ isBreak c then ['2'] else []
    | [] => []
  '|' :: hint ++ chompMark cs

/-- A text, whose later lines start at the indentation. -/
def writeText (indent : Nat) (s : String) : List Char :=
  let cs := s.toList
  match Style.of s with
  | .plain => cs ++ ['\n']
  | .single => '\'' :: singleBody indent false cs ++ ['\'', '\n']
  | .double => '"' :: doubleBody cs ++ ['"', '\n']
  | .literal => blockHeader cs ++ '\n' :: literalBody indent true cs

/-- A key that stands on one line with its value: short, and without line ends. -/
def isSimpleKey (s : String) : Bool :=
  !s.toList.any isBreak && (Text.encode s).length ≤ 128

/-- A key on one line, without the end of the line. -/
def writeKey (s : String) : List Char :=
  let cs := s.toList
  match Style.of s with
  | .plain => cs
  | .single => '\'' :: singleBody 0 false cs ++ ['\'']
  | _ => '"' :: doubleBody cs ++ ['"']

/-! ## Trees -/

mutual

/-- A tree that starts in the middle of a line.  `outer` is the column of the block around it, if there is
one, and the lines of a block start at `column`. -/
def node (outer column : Nat) : Data → List Char
  | .null => "null\n".toList
  | .bool b => if b then "true\n".toList else "false\n".toList
  | .int i => (toString i.toInt).toList ++ ['\n']
  | .uint u => (toString u.toNat).toList ++ ['\n']
  | .float x => (floatNotation.write x).toList ++ ['\n']
  | .string s => writeText outer s
  | .list [] => "[]\n".toList
  | .list items => writeItems true column items
  | .map [] => "\x7b\x7d\n".toList
  | .map entries => writeEntries true column entries

/-- The items of a list; the first stands where the writing stands. -/
def writeItems (first : Bool) (column : Nat) : List Data → List Char
  | [] => []
  | d :: rest =>
    (if first then [] else spaces column) ++ '-' :: ' ' :: node (column + 2) (column + 2) d
      ++ writeItems false column rest

/-- The entries of a map; the first stands where the writing stands.  A key that does not fit on one line
with its value gets lines of its own. -/
def writeEntries (first : Bool) (column : Nat) : List (String × Data) → List Char
  | [] => []
  | (k, d) :: rest =>
    (if first then [] else spaces column)
      ++ (if isSimpleKey k then
          writeKey k ++ ':' ::
            match d with
            | .list (_ :: _) => '\n' :: spaces column ++ node (column + 2) column d
            | .map (_ :: _) => '\n' :: spaces (column + 2) ++ node (column + 2) (column + 2) d
            | _ => ' ' :: node (column + 2) (column + 2) d
        else
          '?' :: ' ' :: writeText (column + 2) k
            ++ spaces column ++ ':' :: ' ' :: node (column + 2) (column + 2) d)
      ++ writeEntries false column rest

end

def write (d : Data) : String := String.ofList (node 2 0 d)

end Troupe.Yaml
