import Troupe.Cli.Run

/-!
# The program

Collects what the program finds around itself, and prints how it ends.  The program opens no sockets, so
nothing can be reached from it.
-/

namespace Troupe

def readFile? (path : String) : IO (Option String) := do
  try
    return some (← IO.FS.readFile path)
  catch _ =>
    return none

/-- The variables of a text in which each is ended by a null character. -/
def variablesOf (text : String) : Variables :=
  (text.splitOn "\x00").filterMap fun entry ↦
    match entry.splitOn "=" with
    | name :: value@(_ :: _) => some (name, "=".intercalate value)
    | _ => none

def candidates (args : List String) : List String :=
  match Cli.parse args with
  | some (.run i) => (i.config.map fun path ↦ [path, path ++ Cli.extension]).getD []
  | _ => []

end Troupe

def main (args : List String) : IO UInt32 := do
  let files ← (Troupe.candidates args).filterMapM fun path ↦ do
    return (← Troupe.readFile? path).map fun text ↦ (path, text)
  let environment := Troupe.variablesOf ((← Troupe.readFile? "/proc/self/environ").getD "")
  let surroundings : Troupe.Cli.Surroundings :=
    ⟨environment, (List.lookup · files), 1, Troupe.Net.Network.unreachable⟩
  let _ := Troupe.Wording.brief
  let exit := Troupe.Cli.run surroundings args
  IO.print exit.output
  if let some message := exit.error then
    IO.eprintln ("Error: " ++ message)
  if exit.code = 2 then
    IO.eprintln Troupe.Cli.usageHint
  return UInt32.ofNat exit.code
