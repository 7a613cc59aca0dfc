import Troupe.Config.Basic
import Troupe.Toml.Write

/-!
# Writing configurations

A configuration is written with every setting, defaults included, so that reading it back does not depend
on them.
-/

namespace Troupe

/-- The blocks of a module: its own settings, and those for its factory. -/
def Module.blocks (m : Module) : List Toml.Block :=
  let listen := match m.listen with
    | some address => [("listen", Data.string address)]
    | none => []
  ⟨.element ["modules"], [("name", .string m.name), ("factory", .string m.factory)] ++ listen⟩
    :: Toml.blocksAt ["modules", "configuration"] (.map m.configuration)

namespace Config

def blocks (c : Config) : List Toml.Block :=
  [⟨.top, if c.modules.isEmpty then [("modules", .list [])] else []⟩,
    ⟨.table ["scheduler"], [("threads", .uint c.threads)]⟩,
    ⟨.table ["logging"], [("level", .string c.level), ("json", .bool c.json)]⟩,
    ⟨.table ["transport"], [("max_message_size", .uint c.maxMessageSize),
      ("default_format", .string c.defaultFormat)]⟩]
    ++ c.modules.flatMap Module.blocks

def render (c : Config) : Except ConfigError String :=
  match Toml.write? c.blocks with
  | some text => .ok text
  | none => .error .unwritable

end Config

end Troupe
