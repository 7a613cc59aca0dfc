import Troupe.Yaml.Tag

/-!
# Scalars, anchors and directives in a text

The readers of everything in a YAML text that is longer than an indicator.  Each takes the place where the
lexeme starts and answers with what it stands for and the place after it, or with nothing if it is
malformed.  Line ends inside plain and quoted scalars are folded: one becomes a space, and of more the
first is dropped.
-/

namespace Troupe.Yaml

/-! ## Folding -/

/-- What stands between two words of a scalar. -/
inductive Gap where
  | blanks (cs : List Char)
  /-- line ends: the first, unless it was escaped, and the later ones -/
  | breaks (first : Option Char) (later : List Char)

def Gap.fold : Gap → List Char
  | .blanks cs => cs
  | .breaks none later => later
  | .breaks (some '\n') [] => [' ']
  | .breaks (some '\n') later => later
  | .breaks (some c) later => c :: later

def Gap.isBreaks : Gap → Bool
  | .blanks _ => false
  | .breaks _ _ => true

/-- Reads on through a gap.  A tab before `margin` on a later line is an error. -/
def gap : Nat → Int → Gap → Place → Option (Gap × Place)
  | 0, _, g, p => some (g, p)
  | fuel + 1, margin, g, p =>
    match p.rest with
    | [] => some (g, p)
    | c :: _ =>
      if isBlank c then
        match g with
        | .blanks cs => gap fuel margin (.blanks (cs ++ [c])) (p.advance 1)
        | .breaks first later =>
          if c = '\t' ∧ (p.column : Int) < margin then none
          else gap fuel margin (.breaks first later) (p.advance 1)
      else
        match p.newline? with
        | none => some (g, p)
        | some (b, p) =>
          match g with
          | .blanks _ => gap fuel margin (.breaks (some b) []) p
          | .breaks first later => gap fuel margin (.breaks first (later ++ [b])) p

/-! ## Plain scalars -/

/-- Characters that end a plain scalar inside brackets. -/
def isFlowIndicator (c : Char) : Bool :=
  c == ',' || c == '[' || c == ']' || c == '\x7b' || c == '\x7d'

/-- Reads a word of a plain scalar.  Inside brackets a colon right before an indicator is an error. -/
def plainWord (inFlow : Bool) : List Char → Option (List Char × List Char)
  | [] => some ([], [])
  | c :: rest =>
    if isBlank c || isBreak c then some ([], c :: rest)
    else if inFlow && c == ':' && rest.head?.any (fun d ↦ isFlowIndicator d || d == '?') then none
    else if (c == ':' && endsWord rest) || (inFlow && isFlowIndicator c) then some ([], c :: rest)
    else (plainWord inFlow rest).map fun (word, rest) ↦ (c :: word, rest)

/-- Reads on in a plain scalar: its text, the place after it, and whether that is on a later line than
its last word.  Outside brackets its lines stand at `margin` or further in. -/
def plainFrom (inFlow : Bool) (margin : Int) :
    Nat → List Char → Gap → Place → Option (List Char × Place × Bool)
  | 0, text, g, p => some (text, p, g.isBreaks)
  | fuel + 1, text, g, p =>
    if p.atDocumentMark || p.rest.head? == some '#' then some (text, p, g.isBreaks)
    else do
      let (word, _) ← plainWord inFlow p.rest
      let p := p.advance word.length
      let (text, g) := if word.isEmpty then (text, g) else (text ++ g.fold ++ word, .blanks [])
      if p.rest.isEmpty || !endsWord p.rest then some (text, p, g.isBreaks)
      else
        let (g, p) ← gap p.rest.length margin g p
        if !inFlow && (p.column : Int) < margin then some (text, p, g.isBreaks)
        else plainFrom inFlow margin fuel text g p

def plainScalar (inFlow : Bool) (margin : Int) (p : Place) : Option (String × Place × Bool) :=
  (plainFrom inFlow margin p.rest.length [] (.blanks []) p).map fun (text, rest) ↦
    (String.ofList text, rest)

/-! ## Quoted scalars -/

def escapeLetter? : Char → Option Char
  | '0' => some '\x00'
  | 'a' => some '\x07'
  | 'b' => some '\x08'
  | 't' => some '\t'
  | '\t' => some '\t'
  | 'n' => some '\n'
  | 'v' => some '\x0b'
  | 'f' => some '\x0c'
  | 'r' => some '\r'
  | 'e' => some '\x1b'
  | ' ' => some ' '
  | '"' => some '"'
  | '/' => some '/'
  | '\\' => some '\\'
  | 'N' => some '\u0085'
  | '_' => some '\u00a0'
  | 'L' => some '\u2028'
  | 'P' => some '\u2029'
  | _ => none

/-- The number of digits after an escape letter that states a code point. -/
def escapeWidth? : Char → Option Nat
  | 'x' => some 2
  | 'u' => some 4
  | 'U' => some 8
  | _ => none

/-- The character of an escape, after its backslash, and the number of characters of the escape. -/
def escaped? : List Char → Option (Char × Nat)
  | [] => none
  | letter :: rest =>
    match escapeLetter? letter with
    | some c => some (c, 1)
    | none => do
      let width ← escapeWidth? letter
      let digits := rest.take width
      if digits.length = width then
        let n ← Numeral.natural? 16 digits
        if h : n.isValidChar then some (Char.ofNatAux n h, width + 1) else none
      else none

/-- How a word of a quoted scalar ends. -/
inductive WordEnd where
  /-- at a blank, at the end of a line or at the closing quote -/
  | plain
  /-- at an escaped line end -/
  | joined

def quotedWord (single : Bool) : Nat → Place → Option (List Char × WordEnd × Place)
  | 0, p => some ([], .plain, p)
  | fuel + 1, p =>
    match p.rest with
    | [] => some ([], .plain, p)
    | c :: rest =>
      if isBlank c || isBreak c then some ([], .plain, p)
      else if single then
        if c = '\'' then
          if rest.head? = some '\'' then
            (quotedWord single fuel (p.advance 2)).map fun (word, rest) ↦ ('\'' :: word, rest)
          else some ([], .plain, p)
        else (quotedWord single fuel (p.advance 1)).map fun (word, rest) ↦ (c :: word, rest)
      else if c = '"' then some ([], .plain, p)
      else if c = '\\' then
        match (p.advance 1).newline? with
        | some (_, p) => some ([], .joined, p)
        | none => do
          let (c, n) ← escaped? rest
          let (word, rest) ← quotedWord single fuel (p.advance (n + 1))
          some (c :: word, rest)
      else (quotedWord single fuel (p.advance 1)).map fun (word, rest) ↦ (c :: word, rest)

/-- Reads on in a quoted scalar, up to and with its closing quote. -/
def quotedFrom (single : Bool) : Nat → List Char → Place → Option (List Char × Place)
  | 0, _, _ => none
  | fuel + 1, text, p =>
    if p.atDocumentMark then none
    else do
      let (word, wordEnd, p) ← quotedWord single p.rest.length p
      let text := text ++ word
      match p.rest with
      | [] => none
      | c :: _ =>
        let start : Gap := match wordEnd with
          | .plain => .blanks []
          | .joined => .breaks none []
        if c = (if single then '\'' else '"') then some (text, p.advance 1)
        else
          let (g, p) ← gap p.rest.length (-1) start p
          quotedFrom single fuel (text ++ g.fold) p

def quotedScalar (single : Bool) (p : Place) : Option (String × Place) :=
  (quotedFrom single (p.rest.length + 1) [] (p.advance 1)).map fun (text, rest) ↦
    (String.ofList text, rest)

/-! ## Blocks -/

/-- Which line ends at the end of a block count. -/
inductive Chomp where
  /-- none -/
  | strip
  /-- the first -/
  | clip
  /-- all of them -/
  | keep
deriving DecidableEq

/-- Reads the empty lines before a line of a block, and the indentation of that line: the line ends, the
indentation and the place.  While the indentation is not known it is that of the deepest line so far, and
at least `least`. -/
def blockBreaks (least : Nat) : Nat → Option Nat → Nat → List Char → Place →
    Option (List Char × Nat × Place)
  | 0, known, deepest, breaks, p => some (breaks, known.getD (max deepest least), p)
  | fuel + 1, known, deepest, breaks, p =>
    let blanks := (p.rest.takeWhile (· == ' ')).length
    let p := p.advance (match known with
      | none => blanks
      | some indent => min blanks (indent - p.column))
    let deepest := max deepest p.column
    if known.all (p.column < ·) && p.rest.head? == some '\t' then none
    else
      match p.newline? with
      | some (b, p) => blockBreaks least fuel known deepest (breaks ++ [b]) p
      | none => some (breaks, known.getD (max deepest least), p)

/-- Reads on in a block: its text, the line end after its last line, and the empty lines after that.
`breaks` are the empty lines before, `lineEnd` ends the line before them, and `blankBefore` says that that
line started with a blank. -/
def blockFrom (folded : Bool) (indent : Nat) :
    Nat → List Char → List Char → Bool → List Char → Place →
      Option (List Char × List Char × List Char × Place)
  | 0, text, lineEnd, _, breaks, p => some (text, lineEnd, breaks, p)
  | fuel + 1, text, lineEnd, blankBefore, breaks, p =>
    if p.column != indent || p.rest.isEmpty then some (text, lineEnd, breaks, p)
    else
      let blank := p.rest.head?.any isBlank
      let join :=
        if folded && lineEnd == ['\n'] && !blankBefore && !blank then
          if breaks.isEmpty then [' '] else []
        else lineEnd
      let line := p.rest.takeWhile (!isBreak ·)
      let p := p.advance line.length
      let (lineEnd, p) := match p.newline? with
        | some (b, p) => ([b], p)
        | none => ([], p)
      match blockBreaks indent (p.rest.length + 1) (some indent) 0 [] p with
      | none => none
      | some (later, _, p) =>
        blockFrom folded indent fuel (text ++ join ++ breaks ++ line) lineEnd blank later p

/-- The signs after the mark of a block: which line ends count, and the indentation if it is stated. -/
def headerSigns? : List Char → Option (Chomp × Option Nat × Nat)
  | cs =>
    let sign? (c : Char) : Option Chomp :=
      if c = '+' then some .keep else if c = '-' then some .strip else none
    let digit? (c : Char) : Bool := Numeral.isDigit c
    match cs with
    | c :: d :: _ =>
      match sign? c with
      | some chomp =>
        if digit? d then if d = '0' then none else some (chomp, some (d.toNat - '0'.toNat), 2)
        else some (chomp, none, 1)
      | none =>
        if digit? c then
          if c = '0' then none
          else
            match sign? d with
            | some chomp => some (chomp, some (c.toNat - '0'.toNat), 2)
            | none => some (.clip, some (c.toNat - '0'.toNat), 1)
        else some (.clip, none, 0)
    | [c] =>
      match sign? c with
      | some chomp => some (chomp, none, 1)
      | none =>
        if digit? c then if c = '0' then none else some (.clip, some (c.toNat - '0'.toNat), 1)
        else some (.clip, none, 0)
    | [] => some (.clip, none, 0)

/-- Reads a literal or folded block inside a block in column `parent`. -/
def blockScalar (folded : Bool) (parent : Int) (p : Place) : Option (String × Place) := do
  let (chomp, stated, n) ← headerSigns? (p.rest.drop 1)
  let p := (p.advance (n + 1)).skipWhile isBlank
  let p := if p.rest.head? = some '#' then p.skipWhile (!isBreak ·) else p
  if !endsLine p.rest then none
  else
    let p := match p.newline? with
      | some (_, p) => p
      | none => p
    let known := stated.map fun n ↦ (max parent 0).toNat + n
    let least := max 1 (parent + 1).toNat
    let (breaks, indent, p) ← blockBreaks least (p.rest.length + 1) known 0 [] p
    let (text, lineEnd, later, p) ← blockFrom folded indent (p.rest.length + 1) [] [] false breaks p
    let text := text ++ (if chomp = .strip then [] else lineEnd)
      ++ (if chomp = .keep then later else [])
    some (String.ofList text, p)

/-! ## Names -/

/-- Reads the name of an anchor or an alias after its mark. -/
def anchorName (p : Place) : Option (String × Place) :=
  let name := (p.rest.drop 1).takeWhile isNameChar
  let p := p.advance (name.length + 1)
  if name.isEmpty then none
  else if endsWord p.rest || p.rest.head?.any (fun c ↦ "?:,]\x7d%@\x60".toList.contains c) then
    some (String.ofList name, p)
  else none

/-! ## Directives -/

inductive Directive where
  | version (major minor : Nat)
  | handle (name : String) (address : Bytes)

def versionNumber (cs : List Char) : Option (Nat × List Char) :=
  let (digits, rest) := Numeral.spanDigits cs
  if digits.length ≤ 9 then (Numeral.natural? 10 digits).map (·, rest) else none

def directiveValue (name : String) (cs : List Char) : Option (Directive × List Char) :=
  if name = "YAML" then do
    let (major, rest) ← versionNumber (cs.dropWhile isBlank)
    match rest with
    | '.' :: rest =>
      let (minor, rest) ← versionNumber rest
      some (.version major minor, rest)
    | _ => none
  else if name = "TAG" then
    match cs.dropWhile isBlank with
    | '!' :: rest => do
      let inner := rest.takeWhile isNameChar
      let after := rest.drop inner.length
      let (handle, after) ← (match after with
        | '!' :: after => some ('!' :: inner ++ ['!'], after)
        | _ => if inner.isEmpty then some (['!'], after) else none : Option (List Char × List Char))
      if !(after.head?.any isBlank) then none
      else
        let after := after.dropWhile isBlank
        let (address, after) ← tagBytes true after.length after
        if address.isEmpty || !endsWord after then none
        else some (.handle (String.ofList handle) (beforeZero address), after)
    | _ => none
  else none

/-- Reads a directive, up to the end of its line. -/
def directive (p : Place) : Option (Directive × Place) := do
  let name := (p.rest.drop 1).takeWhile isNameChar
  let after := p.rest.drop (name.length + 1)
  if name.isEmpty || !endsWord after then none
  else
    let (d, rest) ← directiveValue (String.ofList name) after
    let rest := rest.dropWhile isBlank
    let rest := if rest.head? = some '#' then rest.dropWhile (!isBreak ·) else rest
    if endsLine rest then
      let p := p.advance (p.rest.length - rest.length)
      match p.newline? with
      | some (_, p) => some (d, p)
      | none => some (d, p)
    else none

end Troupe.Yaml
