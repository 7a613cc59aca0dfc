import Troupe.Yaml.Char

/-!
# Places in a text

A `Place` is the rest of a text together with where it starts: how many bytes were read, on which line, and
in which column.  Layout is decided by columns, which count characters; how long a key is, by bytes.
-/

namespace Troupe.Yaml

structure Place where
  rest : List Char
  index : Nat
  /-- the number of line ends before -/
  line : Nat
  /-- the number of characters before on the line -/
  column : Nat

namespace Place

def start (cs : List Char) : Place := ⟨cs, 0, 0, 0⟩

/-- The place after `n` characters of one line. -/
def advance (p : Place) (n : Nat) : Place :=
  { p with
    rest := p.rest.drop n
    index := (p.rest.take n).foldl (fun index c ↦ index + c.utf8Size) p.index
    column := p.column + n }

/-- The place at the start of the next line, and the character that the line end counts as.  A carriage
return with a line feed is one line end; line and paragraph separators count as themselves. -/
def newline? (p : Place) : Option (Char × Place) :=
  match p.rest with
  | '\r' :: '\n' :: rest => some ('\n', ⟨rest, p.index + 2, p.line + 1, 0⟩)
  | c :: rest =>
    if isBreak c then
      let shown := if c = '\u2028' ∨ c = '\u2029' then c else '\n'
      some (shown, ⟨rest, p.index + c.utf8Size, p.line + 1, 0⟩)
    else none
  | [] => none

/-- The place after the characters that a test accepts. -/
def skipWhile (p : Place) (test : Char → Bool) : Place :=
  p.advance (p.rest.takeWhile test).length

/-- The place starts a line with three equal marks that stand alone, as the ends of documents do. -/
def atDocumentMark (p : Place) : Bool :=
  p.column == 0 && (match p.rest with
    | '-' :: '-' :: '-' :: rest => endsWord rest
    | '.' :: '.' :: '.' :: rest => endsWord rest
    | _ => false)

end Place

end Troupe.Yaml
