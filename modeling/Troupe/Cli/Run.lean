import Troupe.Cli.Help
import Troupe.Config.Load
import Troupe.Host
import Troupe.Net.Requester

/-!
# Running the program

What the program answers to its arguments, given what it finds around itself: variables, files, the number
of threads of the machine, and the network.
-/

namespace Troupe.Cli

structure Surroundings where
  environment : Variables
  file : String → Option String
  threads : UInt64
  network : Net.Network

structure Exit where
  /-- the code: zero for success, one for failure, two for arguments that make no sense -/
  code : Nat
  output : String
  error : Option String
deriving DecidableEq, Repr

def succeed (output : String) : Exit := ⟨0, output, none⟩

def fail (message : String) : Exit := ⟨1, "", some message⟩

def misuse : Exit := ⟨2, "", none⟩

def extension : String := ".toml"

/-- The source at a path, which may leave its ending out if no such file exists. -/
def sourceAt (s : Surroundings) (path : String) : Source :=
  match s.file path with
  | some text => if path.endsWith extension then .document text else .missing
  | none => ((s.file (path ++ extension)).map Source.document).getD .missing

def loadConfig (s : Surroundings) (path : Option String) : Except ConfigError Config :=
  Config.load s.threads ((path.map (sourceAt s)).getD .none) s.environment

def serve (c : Config) : Exit :=
  match Host.build c (Host.factories : Registry Unit Stock.Holding) with
  | .error e => fail e.message
  | .ok (host, _) =>
    match host.bind with
    | .error e => fail e.message
    | .ok _ => succeed ""

def readOperands (text : String) : Except String (List Data) :=
  match Json.read? text with
  | none => .error "Arguments must be valid JSON"
  | some (.list items) => .ok items
  | some d => .error ("Arguments must be a JSON array, not " ++ d.kind.name)

/-- Asks the peer at an address for an operation, and prints its answer as JSON. -/
def call [Wording] (s : Surroundings) (c : Config) (address : String) (format : Option String)
    (operation arguments : String) : Exit :=
  match readOperands arguments with
  | .error message => fail message
  | .ok operands =>
    match Format.require (format.getD c.defaultFormat) with
    | .error e => fail e.message
    | .ok format =>
      match s.network.connect address with
      | .error _ => fail ("Failed to connect to " ++ address)
      | .ok peer =>
        match peer.call format.codec c.maxMessageSize.toNat operation operands with
        | .ok d => succeed (Json.write d ++ "\n")
        | .error message => fail (operation ++ " failed: " ++ message)

def runCommand [Wording] (s : Surroundings) (c : Config) : Command → Exit
  | .serve => serve c
  | .call address format operation arguments => call s c address format operation arguments

def run [Wording] (s : Surroundings) (args : List String) : Exit :=
  match parse args with
  | none => misuse
  | some (.help topic) => succeed (helpText topic)
  | some .version => succeed versionText
  | some (.run i) =>
    match loadConfig s i.config with
    | .error e => fail e.message
    | .ok c => runCommand s c i.command

end Troupe.Cli
