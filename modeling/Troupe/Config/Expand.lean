import Troupe.Config.Basic
import Troupe.Text.Variables

/-!
# Variables in listen addresses

Listen addresses may name variables of the environment.  Their values are put in place module by module; the
first address that names an unset variable ends this, and it and all later ones stay as they are.
-/

namespace Troupe

abbrev Variables := List (String × String)

def Module.expand? (value : String → Option String) (m : Module) : Option Module :=
  match m.listen with
  | none => some m
  | some address => (Text.expand? value address).map fun address ↦ { m with listen := some address }

/-- Puts the values of variables in place in the listen addresses of modules, up to the first error. -/
def expandModules (value : String → Option String) : List Module → Option ConfigError × List Module
  | [] => (none, [])
  | m :: rest =>
    match m.expand? value with
    | none => (some (.expansion m.name), m :: rest)
    | some m =>
      let (e, rest) := expandModules value rest
      (e, m :: rest)

/-- Puts the values of variables in place in the listen addresses, up to the first error. -/
def Config.expand (c : Config) (environment : Variables) : Option ConfigError × Config :=
  let (e, modules) := expandModules (List.lookup · environment) c.modules
  (e, { c with modules })

end Troupe
