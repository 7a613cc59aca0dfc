/-!
# Command-line arguments

Arguments are options and words.  Options of two dashes are spelled out and those of one dash are a letter;
the value of an option is the rest of its argument or the next argument, which then must not look like an
option itself.  After two dashes alone everything is a word.  Options of the program may be given before a
command or after it, where the latter counts, but not twice in one place.

A value that is attached to its option is looked at right away.  A value that is an argument of its own is
looked at when the next option or word is, or at the end, so a request for help that comes first is
answered whatever the value is.
-/

namespace Troupe.Cli

/-! ## Options -/

inductive Effect where
  | text
  /-- it sets a path, which must not be empty -/
  | path
  | help
  | version
deriving DecidableEq, Repr

def Effect.takesValue : Effect → Bool
  | .text | .path => true
  | .help | .version => false

structure Switch where
  long : String
  /-- its letter, if it has one -/
  short : Option Char
  effect : Effect
deriving DecidableEq, Repr

structure Given where
  values : List (String × String) := []
  words : List String := []
  /-- the latest option, if its value is not looked at yet, and the value if it is there -/
  waiting : Option (Switch × Option String) := none
deriving DecidableEq, Repr

inductive Stop where
  | misuse
  | help
  | version
deriving DecidableEq, Repr

namespace Given

/-- Sets the value of an option, which may be done once. -/
def put (g : Given) (s : Switch) (v : String) : Except Stop Given :=
  if (g.values.lookup s.long).isSome || (s.effect == .path && v == "") then .error .misuse
  else .ok { g with values := (s.long, v) :: g.values }

def settle (g : Given) : Except Stop Given :=
  match g.waiting with
  | none => .ok g
  | some (_, none) => .error .misuse
  | some (s, some v) => { g with waiting := none }.put s v

def awaitsValue (g : Given) : Bool := g.waiting.any (·.2.isNone)

/-- Adds words, of which there may be at most `room`. -/
def addWords (g : Given) (room : Nat) (words : List String) : Except Stop Given := do
  let g ← g.settle
  if g.words.length + words.length ≤ room then pure { g with words := g.words ++ words }
  else throw .misuse

end Given

/-- Starts with a dash, and is more than that. -/
def looksLikeOption (arg : String) : Bool := arg.startsWith "-" && arg != "-"

def applySwitch (s : Switch) (attached : Option (List Char)) (g : Given) : Except Stop Given := do
  let g ← g.settle
  match s.effect, attached with
  | .help, none => throw .help
  | .version, none => throw .version
  | .help, some _ | .version, some _ => throw .misuse
  | _, some v => g.put s (String.ofList v)
  | _, none => pure { g with waiting := some (s, none) }

def attachedTo : List Char → Option (List Char)
  | _ :: rest => some rest
  | [] => none

/-- Reads an option of two dashes, which were taken off. -/
def readLong (switches : List Switch) (arg : List Char) (g : Given) : Except Stop Given :=
  let (name, after) := arg.span (· != '=')
  match switches.find? fun s ↦ s.long.toList == name with
  | none => .error .misuse
  | some s => applySwitch s (attachedTo after) g

/-- Reads an option of one dash, which was taken off. -/
def readShort (switches : List Switch) (arg : List Char) (g : Given) : Except Stop Given :=
  match arg with
  | [] => .error .misuse
  | c :: after =>
    match switches.find? fun s ↦ s.short == some c with
    | none => .error .misuse
    | some s =>
      let attached := match after with
        | [] => none
        | '=' :: v => some v
        | v => some v
      applySwitch s (if s.effect.takesValue then attached else none) g

def readOption (switches : List Switch) (arg : String) (g : Given) : Except Stop Given :=
  match arg.toList with
  | '-' :: '-' :: name => readLong switches name g
  | _ :: letters => readShort switches letters g
  | [] => .error .misuse

/-- Reads arguments with at most `room` words among them.  Without a number of words, the first one ends the
reading, and is left with what follows it. -/
def readArguments (switches : List Switch) (room : Option Nat) :
    List String → Given → Except Stop (Given × List String)
  | [], g => .ok (g, [])
  | arg :: rest, g =>
    if arg = "--" then
      if rest.isEmpty then .ok (g, []) else (g.addWords (room.getD 0) rest).map fun g ↦ (g, [])
    else if looksLikeOption arg then
      (readOption switches arg g).bind (readArguments switches room rest)
    else if g.awaitsValue then
      readArguments switches room rest
        { g with waiting := g.waiting.map fun (s, _) ↦ (s, some arg) }
    else
      match room with
      | none => .ok (g, arg :: rest)
      | some n => (g.addWords n [arg]).bind (readArguments switches room rest)

/-! ## Commands -/

inductive Command where
  /-- to start the modules of a configuration and serve them -/
  | serve
  /-- to ask the module at an address for an operation -/
  | call (connect : String) (format : Option String) (operation arguments : String)
deriving DecidableEq, Repr

inductive Topic where
  | program
  | serve
  | call
  | help
deriving DecidableEq, Repr

structure Invocation where
  config : Option String
  command : Command
deriving DecidableEq, Repr

inductive Asked where
  | help (topic : Topic)
  | version
  | run (i : Invocation)
deriving DecidableEq, Repr

def configSwitch : Switch := ⟨"config", some 'c', .path⟩

def helpSwitch : Switch := ⟨"help", some 'h', .help⟩

def programSwitches : List Switch := [configSwitch, helpSwitch, ⟨"version", some 'V', .version⟩]

def serveSwitches : List Switch := [configSwitch, helpSwitch]

def callSwitches : List Switch :=
  [⟨"connect", none, .text⟩, ⟨"format", none, .text⟩, configSwitch, helpSwitch]

def configPath (g : Given) : Option String := g.values.lookup configSwitch.long

/-- The command that asks, if it is given an address and an operation.  Without arguments, the operation has
none. -/
def callOf? (g : Given) : Option Command :=
  match g.values.lookup "connect", g.words with
  | some connect, [operation] => some (.call connect (g.values.lookup "format") operation "[]")
  | some connect, [operation, arguments] =>
    some (.call connect (g.values.lookup "format") operation arguments)
  | _, _ => none

/-- Reads the arguments of a command, of which `complete?` makes the command, and then looks at those given
before it. -/
def readCommand (topic : Topic) (switches : List Switch) (room : Nat)
    (complete? : Given → Option Command) (before : Given) (args : List String) : Option Asked :=
  match readArguments switches (some room) args {} with
  | .error .help => some (.help topic)
  | .error _ => none
  | .ok (g, _) =>
    match g.settle, before.settle with
    | .ok g, .ok before =>
      (complete? g).map fun command ↦ .run ⟨(configPath g).or (configPath before), command⟩
    | _, _ => none

def readTopic : List String → Option Asked
  | [] => some (.help .program)
  | ["serve"] => some (.help .serve)
  | ["call"] => some (.help .call)
  | ["help"] => some (.help .help)
  | _ => none

def parse (args : List String) : Option Asked :=
  match readArguments programSwitches none args {} with
  | .error .help => some (.help .program)
  | .error .version => some .version
  | .error .misuse => none
  | .ok (g, "serve" :: rest) => readCommand .serve serveSwitches 0 (fun _ ↦ some .serve) g rest
  | .ok (g, "call" :: rest) => readCommand .call callSwitches 2 callOf? g rest
  | .ok (_, "help" :: rest) => readTopic rest
  | .ok (g, []) =>
    match g.settle with
    | .ok g => some (.run ⟨configPath g, .serve⟩)
    | .error _ => none
  | .ok _ => none

end Troupe.Cli
