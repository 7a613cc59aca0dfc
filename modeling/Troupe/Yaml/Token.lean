import Troupe.Yaml.Lexeme

/-!
# Tokens

`Token.ofChars?` cuts a text into tokens.  Block structure, which the text shows by indentation, becomes
explicit: every block has a token where it starts and one where it ends.  A key in front of a colon is
recognised only when the colon is met, so the token that marks it is inserted where the key began; to that
end `Lexer` remembers, for each level of brackets, the last place where a key may have begun.
-/

namespace Troupe.Yaml

inductive Token where
  | directive (d : Directive)
  | documentStart
  | documentEnd
  | blockList
  | blockMap
  | blockEnd
  | flowList
  | flowListEnd
  | flowMap
  | flowMapEnd
  | blockEntry
  | flowEntry
  /-- a key follows -/
  | key
  /-- the value of a key follows -/
  | value
  | anchor (name : String)
  /-- a node that was named before -/
  | alias (name : String)
  | tag (t : Tag)
  /-- a scalar, and whether it is plain -/
  | scalar (text : String) (plain : Bool)

/-- A place where a key may have begun. -/
structure KeyPlace where
  token : Nat
  index : Nat
  line : Nat
  column : Nat
  /-- a key must begin here, because a block of keys stands in this column -/
  required : Bool

structure Lexer where
  place : Place
  /-- the tokens so far, the last one first -/
  tokens : List Token
  /-- the column of the innermost block -/
  indent : Int
  /-- the columns of the blocks around it -/
  indents : List Int
  /-- for each level of brackets, the innermost first, where a key may have begun -/
  keys : List (Option KeyPlace)
  /-- a key may begin here -/
  keyAllowed : Bool

namespace Lexer

def start (cs : List Char) : Lexer := ⟨Place.start cs, [], -1, [], [none], true⟩

def inFlow (l : Lexer) : Bool := 1 < l.keys.length

def emit (l : Lexer) (t : Token) : Lexer := { l with tokens := t :: l.tokens }

def insertAt (l : Lexer) (n : Nat) (t : Token) : Lexer :=
  { l with tokens := l.tokens.insertIdx (l.tokens.length - n) t }

def moveTo (l : Lexer) (p : Place) : Lexer := { l with place := p }

def allowKey (l : Lexer) (allowed : Bool) : Lexer := { l with keyAllowed := allowed }

/-! ## Blocks -/

def closeBlocks (l : Lexer) (column : Int) : Lexer :=
  if l.inFlow then l else go l.indents.length l
where
  go : Nat → Lexer → Lexer
    | 0, l => l
    | fuel + 1, l =>
      if column < l.indent then
        go fuel { l.emit .blockEnd with
          indent := l.indents.headD (-1)
          indents := l.indents.tail }
      else l

/-- Opens a block in a column further in, with its token before those that follow the first `n`. -/
def openBlock (l : Lexer) (column n : Nat) (t : Token) : Lexer :=
  if l.inFlow || (column : Int) ≤ l.indent then l
  else { l.insertAt n t with indent := column, indents := l.indent :: l.indents }

/-! ## Keys -/

/-- Forgets where a key may have begun.  It is an error if one had to. -/
def dropKey (l : Lexer) : Option Lexer :=
  match l.keys with
  | some k :: rest => if k.required then none else some { l with keys := none :: rest }
  | _ => some l

def markKey (l : Lexer) : Option Lexer :=
  if l.keyAllowed then do
    let required := !l.inFlow && l.indent == (l.place.column : Int)
    let k : KeyPlace :=
      ⟨l.tokens.length, l.place.index, l.place.line, l.place.column, required⟩
    let l ← l.dropKey
    some { l with keys := some k :: l.keys.tail }
  else some l

/-- A key that began at `k` could still end here: it is on one line and has at most 1024 bytes. -/
def reaches (k : KeyPlace) (p : Place) : Bool := k.line == p.line && p.index ≤ k.index + 1024

/-- Forgets the keys that could no longer end here.  It is an error if one of them had to begin. -/
def dropStaleKeys (l : Lexer) : Option Lexer := do
  let keys ← l.keys.mapM fun
    | some k =>
      if reaches k l.place then some (some k) else if k.required then none else some none
    | none => some none
  some { l with keys }

/-! ## Tokens one by one -/

/-- The place of the next token, and whether a key may begin there: blanks, comments and line ends are
passed over.  Outside brackets a tab is not a blank where a key may begin. -/
def skipBlanks : Nat → Bool → Bool → Place → Place × Bool
  | 0, _, allowed, p => (p, allowed)
  | fuel + 1, inFlow, allowed, p =>
    let p := if p.column == 0 && p.rest.head? == some byteOrderMark then p.advance 1 else p
    let p := p.skipWhile fun c ↦ c == ' ' || ((inFlow || !allowed) && c == '\t')
    let p := if p.rest.head? == some '#' then p.skipWhile (!isBreak ·) else p
    match p.newline? with
    | some (_, p) => skipBlanks fuel inFlow (allowed || !inFlow) p
    | none => (p, allowed)

/-- A token of one character that a key may begin with opens brackets. -/
def openFlow (l : Lexer) (t : Token) : Option Lexer := do
  let l ← l.markKey
  some { (l.emit t).moveTo (l.place.advance 1) with keys := none :: l.keys, keyAllowed := true }

def closeFlow (l : Lexer) (t : Token) : Option Lexer := do
  let l ← l.dropKey
  let keys := if l.inFlow then l.keys.tail else l.keys
  some { (l.emit t).moveTo (l.place.advance 1) with keys, keyAllowed := false }

def blockEntry (l : Lexer) : Option Lexer :=
  if !l.inFlow && !l.keyAllowed then none
  else do
    let l := l.openBlock l.place.column l.tokens.length .blockList
    let l ← l.dropKey
    some ((l.emit .blockEntry).moveTo (l.place.advance 1) |>.allowKey true)

def explicitKey (l : Lexer) : Option Lexer :=
  if !l.inFlow && !l.keyAllowed then none
  else do
    let l := l.openBlock l.place.column l.tokens.length .blockMap
    let l ← l.dropKey
    some ((l.emit .key).moveTo (l.place.advance 1) |>.allowKey !l.inFlow)

/-- The mark of a value.  If a key may have begun before, it did. -/
def valueMark (l : Lexer) : Option Lexer :=
  match l.keys with
  | some k :: rest =>
    let l := { l.insertAt k.token .key with keys := none :: rest }
    let l := l.openBlock k.column k.token .blockMap
    some ((l.emit .value).moveTo (l.place.advance 1) |>.allowKey false)
  | _ =>
    if !l.inFlow && !l.keyAllowed then none
    else
      let l := l.openBlock l.place.column l.tokens.length .blockMap
      some ((l.emit .value).moveTo (l.place.advance 1) |>.allowKey !l.inFlow)

/-- A token that a key may begin with, after which none may begin. -/
def word (l : Lexer) (read : Place → Option (Token × Place)) : Option Lexer := do
  let l ← l.markKey
  let (t, p) ← read l.place
  some ((l.emit t).moveTo p |>.allowKey false)

def plain (l : Lexer) : Option Lexer := do
  let l ← l.markKey
  let (s, p, later) ← plainScalar l.inFlow (l.indent + 1) l.place
  some ((l.emit (.scalar s true)).moveTo p |>.allowKey later)

def block (l : Lexer) (folded : Bool) : Option Lexer := do
  let l ← l.dropKey
  let (s, p) ← blockScalar folded l.indent l.place
  some ((l.emit (.scalar s false)).moveTo p |>.allowKey true)

def outermost (l : Lexer) (read : Place → Option (Token × Place)) : Option Lexer := do
  let l ← (l.closeBlocks (-1)).dropKey
  let (t, p) ← read l.place
  some ((l.emit t).moveTo p |>.allowKey false)

/-- A character that a plain scalar may start with, given what follows it. -/
def startsPlain (inFlow : Bool) (c : Char) (rest : List Char) : Bool :=
  !(isBlank c || isBreak c || "-?:,[]\x7b\x7d#&*!|>'\"%@\x60".toList.contains c)
    || (c == '-' && !(rest.head?.any isBlank))
    || (!inFlow && (c == '?' || c == ':') && !endsWord rest)

/-- Reads the token at the place, of which `c` is the first character. -/
def token (l : Lexer) (c : Char) (rest : List Char) : Option Lexer :=
  if l.place.column = 0 ∧ c = '%' then
    l.outermost fun p ↦ (directive p).map fun (d, p) ↦ (.directive d, p)
  else if l.place.atDocumentMark then
    l.outermost fun p ↦ some (if c = '-' then .documentStart else .documentEnd, p.advance 3)
  else if c = '[' then l.openFlow .flowList
  else if c = '\x7b' then l.openFlow .flowMap
  else if c = ']' then l.closeFlow .flowListEnd
  else if c = '\x7d' then l.closeFlow .flowMapEnd
  else if c = ',' then do
    let l ← l.dropKey
    some ((l.emit .flowEntry).moveTo (l.place.advance 1) |>.allowKey true)
  else if c = '-' ∧ endsWord rest then l.blockEntry
  else if c = '?' ∧ (l.inFlow || endsWord rest) then l.explicitKey
  else if c = ':' ∧ (l.inFlow || endsWord rest) then l.valueMark
  else if c = '*' then l.word fun p ↦ (anchorName p).map fun (s, p) ↦ (.alias s, p)
  else if c = '&' then l.word fun p ↦ (anchorName p).map fun (s, p) ↦ (.anchor s, p)
  else if c = '!' then l.word fun p ↦ (tag l.inFlow p).map fun (t, p) ↦ (.tag t, p)
  else if c = '|' ∧ !l.inFlow then l.block false
  else if c = '>' ∧ !l.inFlow then l.block true
  else if c = '\'' then l.word fun p ↦ (quotedScalar true p).map fun (s, p) ↦ (.scalar s false, p)
  else if c = '"' then l.word fun p ↦ (quotedScalar false p).map fun (s, p) ↦ (.scalar s false, p)
  else if startsPlain l.inFlow c rest then l.plain
  else none

/-- Reads all tokens that are left, and closes the blocks at the end. -/
def run : Nat → Lexer → Option Lexer
  | 0, _ => none
  | fuel + 1, l =>
    let (p, allowed) := skipBlanks (l.place.rest.length + 1) l.inFlow l.keyAllowed l.place
    (l.moveTo p |>.allowKey allowed).dropStaleKeys.bind fun l ↦
      let l := l.closeBlocks p.column
      match p.rest with
      | [] => (l.closeBlocks (-1)).dropKey
      | c :: rest => (l.token c rest).bind (run fuel)

end Lexer

/-- The tokens of a text.  Every token takes a character at least. -/
def Token.ofChars? (cs : List Char) : Option (List Token) :=
  if cs.all isReadable then
    (Lexer.run (cs.length + 1) (Lexer.start cs)).map fun l ↦ l.tokens.reverse
  else none

end Troupe.Yaml
