import Troupe.Text.Letter

/-!
# Variables in texts

A text may name variables: `$NAME`, `$` followed by the name in braces, or by a name, `:-` and a default in
braces.  `expand?` puts their values in place.  Values and defaults are taken as they are, the default counts
only if the variable is not set, and a variable that is not set and has no default makes the text
meaningless.  Two dollar signs stand for one, and a dollar sign that begins nothing stands for itself.
-/

namespace Troupe.Text

def isVariableChar (c : Char) : Bool := isLetterOrNumber c || c == '_'

/-- Splits what stands in braces into a name and a default; a default needs a name before it. -/
def splitDefault : List Char → List Char × Option (List Char)
  | [] => ([], none)
  | ':' :: '-' :: rest => ([], some rest)
  | c :: rest =>
    let (name, default) := splitDefault rest
    (c :: name, default)

def braced? (value : String → Option String) (inner : List Char) : Option (List Char) :=
  let (name, default) := match splitDefault inner with
    | ([], some _) => (inner, none)
    | split => split
  match value (String.ofList name) with
  | some v => some v.toList
  | none => default

/-- What stands before a closing brace, and what after it. -/
def closingBrace? (cs : List Char) : Option (List Char × List Char) :=
  let (inner, rest) := cs.span (· != '\x7d')
  match rest with
  | _ :: rest => some (inner, rest)
  | [] => none

/-- Puts the values of variables in place, for at most `fuel` characters and variables. -/
def expandChars? (value : String → Option String) : Nat → List Char → Option (List Char)
  | 0, _ => some []
  | _, [] => some []
  | fuel + 1, '$' :: rest =>
    match rest with
    | '\x7b' :: inner =>
      match closingBrace? inner with
      | some (inner, rest) => do
        let v ← braced? value inner
        let after ← expandChars? value fuel rest
        some (v ++ after)
      | none => (expandChars? value fuel inner).map fun after ↦ '$' :: '\x7b' :: after
    | '$' :: rest => (expandChars? value fuel rest).map ('$' :: ·)
    | rest =>
      let (name, after) := rest.span isVariableChar
      if name = [] then (expandChars? value fuel rest).map ('$' :: ·)
      else do
        let v ← value (String.ofList name)
        let after ← expandChars? value fuel after
        some (v.toList ++ after)
  | fuel + 1, c :: rest => (expandChars? value fuel rest).map (c :: ·)

/-- The text with the values of variables in place.  Every step takes a character, so that there is fuel for
all of them. -/
def expand? (value : String → Option String) (s : String) : Option String :=
  (expandChars? value s.length s.toList).map String.ofList

end Troupe.Text
