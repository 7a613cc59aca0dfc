import Troupe.Yaml.Char
import Troupe.Yaml.Scalar

/-!
# The style of a written text

A text is written plainly where it reads back as itself, in single quotes where only its look is in the
way, in double quotes where it holds characters that must be escaped, and as a literal block where it has
lines.  `Features.of` collects what the choice depends on in one pass over the characters.
-/

namespace Troupe.Yaml

inductive Style where
  | plain
  | single
  | double
  | literal
deriving DecidableEq, Repr

structure Features where
  /-- a line ends inside the text -/
  multiline : Bool := false
  /-- some character or sequence has a meaning outside quotes -/
  indicators : Bool := false
  /-- some character must be escaped -/
  special : Bool := false
  leadingSpace : Bool := false
  leadingBreak : Bool := false
  trailingSpace : Bool := false
  trailingBreak : Bool := false
  breakSpace : Bool := false
  spaceBreak : Bool := false
deriving DecidableEq, Repr

namespace Features

/-- A first character that would be read as an indicator. -/
def isIndicatorFirst (c : Char) (rest : List Char) : Bool :=
  "#,[]\x7b\x7d&*!|>'\"%@\x60".toList.contains c
    || ((c == '?' || c == ':' || c == '-') && endsWord rest)

def isIndicatorLater (before c : Char) (rest : List Char) : Bool :=
  (c == ':' && endsWord rest) || (c == '#' && (isBlank before || isBreak before))

/-- The features that one character adds, given the character before it. -/
def add (f : Features) (before : Option Char) (c : Char) (rest : List Char) : Features :=
  let afterSpace := before == some ' '
  let afterBreak := before.any isBreak
  { multiline := f.multiline || isBreak c
    indicators := f.indicators || match before with
      | none => isIndicatorFirst c rest
      | some b => isIndicatorLater b c rest
    special := f.special || !isPrintable c
    leadingSpace := f.leadingSpace || (before.isNone && c == ' ')
    leadingBreak := f.leadingBreak || (before.isNone && isBreak c)
    trailingSpace := f.trailingSpace || (rest.isEmpty && c == ' ')
    trailingBreak := f.trailingBreak || (rest.isEmpty && isBreak c)
    breakSpace := f.breakSpace || (afterBreak && c == ' ')
    spaceBreak := f.spaceBreak || (afterSpace && isBreak c) }

/-- The features of the characters from one place on. -/
def collect (f : Features) (before : Option Char) : List Char → Features
  | [] => f
  | c :: rest => collect (f.add before c rest) (some c) rest

def of (cs : List Char) : Features :=
  let document := ['-', '-', '-'].isPrefixOf cs || ['.', '.', '.'].isPrefixOf cs
  collect { indicators := document } none cs

def allowsPlain (f : Features) : Bool :=
  !(f.leadingSpace || f.leadingBreak || f.trailingSpace || f.trailingBreak || f.breakSpace
    || f.spaceBreak || f.special || f.multiline || f.indicators)

def allowsSingle (f : Features) : Bool := !(f.breakSpace || f.spaceBreak || f.special)

def allowsBlock (f : Features) : Bool := !(f.trailingSpace || f.spaceBreak || f.special)

end Features

/-- The style in which a text would be written if nothing were in the way: a literal block if it has
lines, single quotes if it would read as something else, and plainly otherwise. -/
def Style.wanted (s : String) : Style :=
  if s.toList.contains '\n' then .literal
  else
    match Plain.ofText s with
    | .text false => .plain
    | _ => .single

def Style.of (s : String) : Style :=
  let f := Features.of s.toList
  let quoted : Style := if f.allowsSingle then .single else .double
  match Style.wanted s with
  | .literal => if f.allowsBlock then .literal else .double
  | .plain => if f.allowsPlain then .plain else quoted
  | _ => quoted

end Troupe.Yaml
