import Troupe.Codec

/-!
# Configurations

What a host is told: the size of its worker pool, how it logs, the limits of its connections, and the
modules that it starts.  A host can start from a configuration with workers, with room for frames, with a
known format, and with modules that have a factory and a name of their own.  `Config.validate` reports the
first of these that fails, going through the modules in order.
-/

namespace Troupe

structure Module where
  /-- the name, unique in a configuration -/
  name : String
  factory : String
  /-- the address at which it is served, if it is -/
  listen : Option String
  configuration : Entries Data
deriving Repr

structure Config where
  threads : UInt64
  level : String
  /-- messages are logged as JSON -/
  json : Bool
  maxMessageSize : UInt64
  /-- the name of the format in which the host sends -/
  defaultFormat : String
  /-- the modules, in the order in which they are started -/
  modules : List Module
deriving Repr

namespace Config

/-- The configuration of a host that is told nothing, on a machine for so many threads. -/
def ofThreads (threads : UInt64) : Config where
  threads := threads
  level := "info"
  json := false
  maxMessageSize := 16 * 1024 * 1024
  defaultFormat := Format.json.name
  modules := []

def module? (c : Config) (name : String) : Option Module := c.modules.find? fun m ↦ m.name == name

end Config

inductive ConfigError where
  | source
  | form
  /-- a listen address names a variable that is not set -/
  | expansion (module : String)
  | noThreads
  | noMessageSize
  | format (e : CodecError)
  | unnamedModule
  | duplicateModule (name : String)
  | noFactory (module : String)
  | unwritable
deriving DecidableEq, Repr

namespace ConfigError

def message : ConfigError → String
  | .source => "Failed to build configuration"
  | .form => "Failed to deserialize configuration"
  | .expansion name => "Failed to expand listen address of " ++ name
  | .noThreads => "scheduler.threads must be at least 1"
  | .noMessageSize => "transport.max_message_size must be at least 1"
  | .format _ => "Invalid transport.default_format"
  | .unnamedModule => "module name must not be empty"
  | .duplicateModule name => "duplicate module name " ++ name
  | .noFactory name => "module " ++ name ++ " names no factory"
  | .unwritable => "Failed to serialize configuration"

def explained : ConfigError → String
  | .format e => (ConfigError.format e).message ++ ": " ++ e.message
  | e => e.message

end ConfigError

/-! ## Valid configurations -/

def validateModules (seen : List String) : List Module → Except ConfigError Unit
  | [] => .ok ()
  | m :: rest =>
    if m.name = "" then .error .unnamedModule
    else if m.name ∈ seen then .error (.duplicateModule m.name)
    else if m.factory = "" then .error (.noFactory m.name)
    else validateModules (m.name :: seen) rest

def Config.validate (c : Config) : Except ConfigError Unit :=
  if c.threads = 0 then .error .noThreads
  else if c.maxMessageSize = 0 then .error .noMessageSize
  else
    match Format.require c.defaultFormat with
    | .error e => .error (.format e)
    | .ok _ => validateModules [] c.modules

end Troupe
