import Troupe.Data.Entries
import Troupe.Yaml.Token

/-!
# Nodes

`Node.ofTokens?` builds the tree of the one document that a sequence of tokens holds.  Names are turned into
numbers: a node that is given a name gets the number of names known before it, and an alias has the number
that its name had last.  A name that is given again takes a new number, which a later name may share.  So an
alias is no reference to a node yet; `Node.anchored` lists the nodes that have a number, and of those that
share one the last is meant.
-/

namespace Troupe.Yaml

/-- What may stand in front of a node. -/
structure Properties where
  /-- the number by which aliases refer to the node -/
  anchor : Option Nat := none
  tag : Option Bytes := none

inductive Node where
  /-- a scalar, and whether it is plain -/
  | scalar (properties : Properties) (plain : Bool) (text : String)
  /-- the number of another node -/
  | alias (anchor : Nat)
  | list (properties : Properties) (items : List Node)
  | map (properties : Properties) (entries : List (Node × Node))
deriving Inhabited

def Node.missing : Node := .scalar {} true ""

mutual

/-- The nodes that have a number, in the order in which they start. -/
def Node.anchored : Node → List (Nat × Node)
  | .scalar p plain text => p.anchor.toList.map (·, .scalar p plain text)
  | .alias _ => []
  | .list p items => p.anchor.toList.map (·, .list p items) ++ anchoredItems items
  | .map p entries => p.anchor.toList.map (·, .map p entries) ++ anchoredEntries entries

def Node.anchoredItems : List Node → List (Nat × Node)
  | [] => []
  | n :: rest => n.anchored ++ anchoredItems rest

def Node.anchoredEntries : List (Node × Node) → List (Nat × Node)
  | [] => []
  | (k, v) :: rest => k.anchored ++ v.anchored ++ anchoredEntries rest

end

/-! ## Reading -/

/-- The tokens still to be read, and the names known so far. -/
structure Document where
  tokens : List Token
  names : Entries Nat
  handles : List (String × Bytes)

namespace Document

def skip (d : Document) : Document := { d with tokens := d.tokens.tail }

/-- Gives a name to the node that starts here, and answers its number. -/
def announce (d : Document) (name : String) : Nat × Document :=
  (d.names.length, { d with names := Entries.insert name d.names.length d.names })

def resolve? (d : Document) (t : Tag) : Option Bytes :=
  if t.handle = "" then some t.suffix
  else (d.handles.lookup t.handle).map (· ++ t.suffix)

/-- Reads the anchor and the tag in front of a node, in any order. -/
def properties (d : Document) : Option (Properties × Document) :=
  match d.tokens with
  | .anchor a :: .tag t :: _ | .tag t :: .anchor a :: _ => do
    let tag ← d.resolve? t
    let (n, d) := d.skip.skip.announce a
    some (⟨some n, some tag⟩, d)
  | .anchor a :: _ =>
    let (n, d) := d.skip.announce a
    some (⟨some n, none⟩, d)
  | .tag t :: _ => do
    let tag ← d.resolve? t
    some (⟨none, some tag⟩, d.skip)
  | _ => some ({}, d)

mutual

/-- Reads a node.  `block` admits lists and maps by indentation, `indentless` a list by indentation that
stands in the column of the keys around it. -/
def node : Nat → Bool → Bool → Document → Option (Node × Document)
  | 0, _, _, _ => none
  | fuel + 1, block, indentless, d =>
    match d.tokens with
    | .alias a :: _ => (Entries.find? a d.names).map fun n ↦ (.alias n, d.skip)
    | _ => do
      let (p, d) ← d.properties
      match d.tokens, block, indentless with
      | .blockEntry :: _, _, true => (indentlessItems fuel d).map fun (ns, d) ↦ (.list p ns, d)
      | .scalar text plain :: _, _, _ => some (.scalar p plain text, d.skip)
      | .flowList :: _, _, _ => (flowItems fuel true d.skip).map fun (ns, d) ↦ (.list p ns, d)
      | .flowMap :: _, _, _ => (flowEntries fuel true d.skip).map fun (es, d) ↦ (.map p es, d)
      | .blockList :: _, true, _ => (blockItems fuel d.skip).map fun (ns, d) ↦ (.list p ns, d)
      | .blockMap :: _, true, _ => (blockEntries fuel d.skip).map fun (es, d) ↦ (.map p es, d)
      | _, _, _ =>
        if p.anchor.isSome || p.tag.isSome then some (.scalar p true "", d) else none

def blockItems : Nat → Document → Option (List Node × Document)
  | 0, _ => none
  | fuel + 1, d =>
    match d.tokens with
    | .blockEntry :: next => do
      let (n, d) ← (match next with
        | .blockEntry :: _ | .blockEnd :: _ => some (.missing, d.skip)
        | _ => node fuel true false d.skip)
      let (rest, d) ← blockItems fuel d
      some (n :: rest, d)
    | .blockEnd :: _ => some ([], d.skip)
    | _ => none

/-- Reads the items of a list that stands in the column of the keys around it. -/
def indentlessItems : Nat → Document → Option (List Node × Document)
  | 0, _ => none
  | fuel + 1, d =>
    match d.tokens with
    | .blockEntry :: next => do
      let (n, d) ← (match next with
        | .blockEntry :: _ | .key :: _ | .value :: _ | .blockEnd :: _ => some (.missing, d.skip)
        | _ => node fuel true false d.skip)
      let (rest, d) ← indentlessItems fuel d
      some (n :: rest, d)
    | _ => some ([], d)

/-- Reads a key or a value by indentation after its mark. -/
def blockPart : Nat → Document → Option (Node × Document)
  | 0, _ => none
  | fuel + 1, d =>
    match d.tokens with
    | .key :: _ | .value :: _ | .blockEnd :: _ => some (.missing, d)
    | _ => node fuel true true d

def blockEntries : Nat → Document → Option (List (Node × Node) × Document)
  | 0, _ => none
  | fuel + 1, d =>
    match d.tokens with
    | .key :: _ => do
      let (k, d) ← blockPart fuel d.skip
      let (v, d) ← (match d.tokens with
        | .value :: _ => blockPart fuel d.skip
        | _ => some (.missing, d))
      let (rest, d) ← blockEntries fuel d
      some ((k, v) :: rest, d)
    | .blockEnd :: _ => some ([], d.skip)
    | _ => none

/-- Reads the items of a bracketed list, up to and with its bracket.  A key among them makes an item that
is a map of one entry. -/
def flowItems : Nat → Bool → Document → Option (List Node × Document)
  | 0, _, _ => none
  | fuel + 1, first, d =>
    match d.tokens with
    | .flowListEnd :: _ => some ([], d.skip)
    | _ => do
      let d ← (match d.tokens, first with
        | .flowEntry :: _, false => some d.skip
        | _, true => some d
        | _, false => none)
      match d.tokens with
      | .flowListEnd :: _ => some ([], d.skip)
      | .key :: _ => do
        let d := d.skip
        let (k, d) ← (match d.tokens with
          | .value :: _ | .flowEntry :: _ | .flowListEnd :: _ => some (.missing, d.skip)
          | _ => node fuel false false d)
        let (v, d) ← (match d.tokens with
          | .value :: .flowEntry :: _ | .value :: .flowListEnd :: _ => some (.missing, d.skip)
          | .value :: _ => node fuel false false d.skip
          | _ => some (.missing, d))
        let (rest, d) ← flowItems fuel false d
        some (.map {} [(k, v)] :: rest, d)
      | _ => do
        let (n, d) ← node fuel false false d
        let (rest, d) ← flowItems fuel false d
        some (n :: rest, d)

/-- Reads the entries of a braced map, up to and with its brace.  A key may stand without a value. -/
def flowEntries : Nat → Bool → Document → Option (List (Node × Node) × Document)
  | 0, _, _ => none
  | fuel + 1, first, d =>
    match d.tokens with
    | .flowMapEnd :: _ => some ([], d.skip)
    | _ => do
      let d ← (match d.tokens, first with
        | .flowEntry :: _, false => some d.skip
        | _, true => some d
        | _, false => none)
      match d.tokens with
      | .flowMapEnd :: _ => some ([], d.skip)
      | .key :: _ => do
        let d := d.skip
        let (k, d) ← (match d.tokens with
          | .value :: _ | .flowEntry :: _ | .flowMapEnd :: _ => some (.missing, d)
          | _ => node fuel false false d)
        let (v, d) ← (match d.tokens with
          | .value :: .flowEntry :: _ | .value :: .flowMapEnd :: _ => some (.missing, d.skip)
          | .value :: _ => node fuel false false d.skip
          | _ => some (.missing, d))
        let (rest, d) ← flowEntries fuel false d
        some ((k, v) :: rest, d)
      | _ => do
        let (k, d) ← node fuel false false d
        let (rest, d) ← flowEntries fuel false d
        some ((k, .missing) :: rest, d)

end

/-! ## Documents -/

def defaultHandles : List (String × Bytes) := [("!", Text.encode "!"), ("!!", coreAddress)]

def start (tokens : List Token) : Document := ⟨tokens, [], defaultHandles⟩

/-- Reads the directives in front of a document, up to and with its mark.  The version may be stated once,
and each handle once; stated handles come before the default ones. -/
def directives : Nat → Bool → List (String × Bytes) → Document → Option Document
  | 0, _, _, _ => none
  | fuel + 1, versioned, stated, d =>
    match d.tokens with
    | .directive (.version major minor) :: _ =>
      if versioned || major != 1 || !(minor == 1 || minor == 2) then none
      else directives fuel true stated d.skip
    | .directive (.handle name address) :: _ =>
      if (stated.lookup name).isSome then none
      else directives fuel versioned ((name, address) :: stated) d.skip
    | .documentStart :: _ => some { d.skip with handles := stated ++ d.handles }
    | _ => none

/-- Reads the node of a document after its mark, which may be missing. -/
def content (fuel : Nat) (d : Document) : Option (Node × Document) :=
  match d.tokens with
  | [] | .directive _ :: _ | .documentStart :: _ | .documentEnd :: _ => some (.missing, d)
  | _ => node fuel true false d

def isOver (d : Document) : Bool :=
  d.tokens.all fun
    | .documentEnd => true
    | _ => false

end Document

/-- The node of the one document that the tokens hold; no tokens hold a node that is left out.  Every
three steps take a token. -/
def Node.ofTokens? (tokens : List Token) : Option Node := do
  let fuel := 4 * tokens.length + 4
  let d := Document.start tokens
  let (n, d) ← (match tokens with
    | [] => some (.missing, d)
    | .directive _ :: _ | .documentStart :: _ => do
      let d ← d.directives fuel false []
      d.content fuel
    | _ => d.node fuel true false)
  if d.isOver then some n else none

end Troupe.Yaml
