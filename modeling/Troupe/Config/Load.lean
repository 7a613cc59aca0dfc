import Troupe.Config.Coerce
import Troupe.Config.Expand
import Troupe.Config.Path
import Troupe.Toml.Read

/-!
# Loading configurations

Settings come from a document and from the environment, whose variables override it.  A section may also be
written as a list of its settings in order.  Settings that are not given keep their defaults, unknown ones do
not count, and the result is expanded and checked.
-/

namespace Troupe

/-! ## Settings of the environment -/

/-- How the names of variables that override settings begin, letters in any case. -/
def overridePrefix : String := "actors_"

/-- The setting that a variable's name stands for: two underscores stand between the names of a path. -/
def overrideKey? (name : String) : Option String :=
  let name := Settings.lower name
  if overridePrefix.toList.isPrefixOf name.toList then
    some (".".intercalate ((String.ofList (name.toList.drop overridePrefix.length)).splitOn "__"))
  else none

def overrideValue (s : String) : Data :=
  let word := Settings.lower s
  if word = "true" then .bool true
  else if word = "false" then .bool false
  else
    match Numeral.int64? s, Numeral.float? s with
    | some i, _ => .int i
    | none, some x => .float x
    | none, none => .string s

def overrides (environment : Variables) : Entries Data :=
  Entries.ofList (environment.filterMap fun v ↦ (overrideKey? v.1).map fun key ↦ (key, overrideValue v.2))

def applySettings (settings : Data) (entries : Entries Data) : Data :=
  entries.foldl (fun settings e ↦ Settings.putKey settings e.1 e.2) settings

/-! ## Sections -/

/-- The settings of a section, found by name or by place. -/
abbrev Section := String → Nat → Option Data

/-- The settings of a tree: those of a table have names, and those of a list have places. -/
def Section.ofData? : Data → Option Section
  | .map entries => some fun name _ ↦ Entries.find? name entries
  | .list items => some fun _ place ↦ items[place]?
  | _ => none

namespace Section

def setting? {α : Type} (s : Section) (name : String) (place : Nat) (default : α)
    (read : Data → Option α) : Option α :=
  match s name place with
  | none => some default
  | some d => read d

def inner? (s : Section) (name : String) (place : Nat) : Option Section :=
  s.setting? name place (fun _ _ ↦ none) ofData?

end Section

def optionalText? : Data → Option (Option String)
  | .null => some none
  | d => (Settings.text? d).map some

def Module.ofSection? (s : Section) : Option Module := do
  let name ← (s "name" 0).bind Settings.text?
  let factory ← (s "factory" 1).bind Settings.text?
  let listen ← s.setting? "listen" 2 none optionalText?
  let configuration ← s.setting? "configuration" 3 [] fun
    | .map entries => some entries
    | _ => none
  some ⟨name, factory, listen, configuration⟩

/-- The configuration that a section describes, on a machine for so many threads. -/
def Config.ofSection? (threads : UInt64) (s : Section) : Option Config := do
  let base := Config.ofThreads threads
  let scheduler ← s.inner? "scheduler" 0
  let logging ← s.inner? "logging" 1
  let transport ← s.inner? "transport" 2
  let threads ← scheduler.setting? "threads" 0 base.threads Settings.unsigned?
  let level ← logging.setting? "level" 0 base.level Settings.text?
  let json ← logging.setting? "json" 1 base.json Settings.truth?
  let maxMessageSize ← transport.setting? "max_message_size" 0 base.maxMessageSize Settings.unsigned?
  let defaultFormat ← transport.setting? "default_format" 1 base.defaultFormat Settings.text?
  let modules ← s.setting? "modules" 3 [] fun
    | .list items => items.mapM fun d ↦ (Section.ofData? d).bind Module.ofSection?
    | _ => none
  some ⟨threads, level, json, maxMessageSize, defaultFormat, modules⟩

/-! ## Loading -/

/-- Where a configuration comes from, apart from the environment. -/
inductive Source where
  | none
  /-- a file that does not exist -/
  | missing
  | document (text : String)
deriving DecidableEq, Repr

def Source.settings? : Source → Option (Entries Data)
  | .none => some []
  | .missing => Option.none
  | .document text => Toml.read? text

def Config.load (threads : UInt64) (source : Source) (environment : Variables) :
    Except ConfigError Config :=
  match source.settings? with
  | none => .error .source
  | some settings =>
    let settings := applySettings (applySettings (.map []) settings) (overrides environment)
    match (Section.ofData? settings).bind (Config.ofSection? threads) with
    | none => .error .form
    | some c =>
      match c.expand environment with
      | (some e, _) => .error e
      | (none, c) => c.validate.map fun _ ↦ c

end Troupe
