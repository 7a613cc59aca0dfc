import Troupe.Cli.Arguments

/-!
# Help texts

What the program tells about itself.
-/

namespace Troupe.Cli

def programName : String := "actor-host"

def versionText : String := programName ++ " 0.1.0\n"

def usageHint : String := "For more information, try '--help'."

def ofLines (lines : List String) : String := String.join (lines.map (· ++ "\n"))

def helpText : Topic → String
  | .program => ofLines
    ["Hosts configured actors and serves them over request/reply sockets",
      "",
      "Usage: actor-host [OPTIONS] [COMMAND]",
      "",
      "Commands:",
      "  serve  Instantiate configured modules and serve them (default)",
      "  call   Send one request to a served module and print the reply",
      "  help   Print this message or the help of the given subcommand(s)",
      "",
      "Options:",
      "  -c, --config <CONFIG>  Configuration file path",
      "  -h, --help             Print help",
      "  -V, --version          Print version"]
  | .serve => ofLines
    ["Instantiate configured modules and serve them (default)",
      "",
      "Usage: actor-host serve [OPTIONS]",
      "",
      "Options:",
      "  -c, --config <CONFIG>  Configuration file path",
      "  -h, --help             Print help"]
  | .call => ofLines
    ["Send one request to a served module and print the reply",
      "",
      "Usage: actor-host call [OPTIONS] --connect <CONNECT> <OPERATION> [ARGUMENTS]",
      "",
      "Arguments:",
      "  <OPERATION>  Operation name",
      "  [ARGUMENTS]  Arguments as a JSON array [default: []]",
      "",
      "Options:",
      "  -c, --config <CONFIG>    Configuration file path",
      "      --connect <CONNECT>  Replier address",
      "      --format <FORMAT>    Wire format; defaults to transport.default_format",
      "  -h, --help               Print help"]
  | .help => ofLines
    ["Print this message or the help of the given subcommand(s)",
      "",
      "Usage: actor-host help [COMMAND]...",
      "",
      "Arguments:",
      "  [COMMAND]...  Print help for the subcommand(s)"]

end Troupe.Cli
