import Verbatim.Command.Basic

/-!
# Help

The name and version of the program, and how to use it.
-/

namespace Verbatim.Help

def programName : String := "toml-lst"

/-- The line that names the version. -/
def versionLine : String := programName ++ " 0.1.0\n"

/-- The options that go for all commands, as lines of help. -/
def globalOptions : List String :=
  ["      --config <FILE>  YAML file with parser options",
   "  -v, --verbose...     Log conversion details to stderr. Repeat for more detail",
   "  -h, --help           Print help"]

/-- What the program or a command does, in a sentence. -/
def about : Option CommandName → String
  | none => "Lossless syntax trees for TOML files."
  | some .tree => "Dump the lossless tree of a file"
  | some .print => "Print a file back from its tree"
  | some .check =>
    "Convert every TOML file under a path and verify that each prints back unchanged"

/-- The shape of a command line. -/
def usage : Option CommandName → String
  | none => "Usage: " ++ programName ++ " [OPTIONS] <COMMAND>"
  | some .tree => "Usage: " ++ programName ++ " tree [OPTIONS] <FILE>"
  | some .print => "Usage: " ++ programName ++ " print [OPTIONS] <FILE>"
  | some .check => "Usage: " ++ programName ++ " check [OPTIONS] [PATH]"

/-- What else can be given, as lines of help. -/
def details : Option CommandName → List String
  | none =>
    ["Commands:",
     "  tree   " ++ about (some .tree),
     "  print  " ++ about (some .print),
     "  check  " ++ about (some .check),
     "  help   Print this message or the help of the given subcommand(s)",
     "",
     "Options:"] ++ globalOptions ++ ["  -V, --version        Print version"]
  | some .tree =>
    ["Arguments:",
     "  <FILE>",
     "",
     "Options:",
     "      --format <FORMAT>  [default: json] [possible values: json, yaml]"] ++ globalOptions
  | some .print => ["Arguments:", "  <FILE>", "", "Options:"] ++ globalOptions
  | some .check =>
    ["Arguments:",
     "  [PATH]  [default: .]",
     "",
     "Options:",
     "      --extension <EXT>  File extensions to pick up, overriding the configured ones"] ++
      globalOptions

/-- The help on the program or a command. -/
def text (topic : Option CommandName) : String :=
  String.join
    (([about topic, "", usage topic, ""] ++ details topic).map fun line => line ++ "\n")

end Verbatim.Help
