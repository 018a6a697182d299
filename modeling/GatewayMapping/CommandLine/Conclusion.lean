import GatewayMapping.CommandLine.Run

/-!
# The program

`Conclusion.ofWords` is the whole program: what a command line prints, and the status it ends with.
-/

namespace GatewayMapping.CommandLine

/-- The name of the program. -/
def programName : String := "mapsim"

/-- The version of the program and of its commands. -/
def version : String := "0.1.0"

/-- The name of the program or of one of its commands. -/
def titleOf : Option String → String
  | none => programName
  | some command => programName ++ "-" ++ command

/-- The lines of the help. -/
def helpLines : List String :=
  ["mapsim - API gateway mapping template simulator",
    "",
    "Usage: mapsim [OPTIONS] <COMMAND>",
    "",
    "Commands:",
    "  render    Render a mapping template against a raw HTTP message",
    "            --message <FILE> -t, --template <FILE>",
    "            [-m, --mode <request|response>] [-c, --context <FILE>]",
    "  handle    Process a JSON envelope and print the handler response",
    "            [-e, --event <FILE>] [--body-only]",
    "  scenario  Run scenario directories",
    "            <DIR> [--fail-fast] [--json]",
    "  query     Query a JSON body with a path expression",
    "            -b, --body <FILE> [--message] (--path <PATH> | --json-path <PATH>)",
    "  help      Print this message",
    "",
    "Options:",
    "  -v, --verbose               Enable verbose output",
    "  -q, --quiet                 Suppress non-essential output",
    "      --log-json              Emit logs as JSON lines",
    "      --config <FILE>         Engine configuration file (YAML) [env: MAPSIM_CONFIG]",
    "      --lenient               Yield null for undefined references instead of failing",
    "      --resource <NAME=FILE>  Template resource for #parse/#include (repeatable)",
    "  -h, --help                  Print help",
    "  -V, --version               Print version",
    "",
    "Exit codes: 0 success, 1 general error, 2 invalid arguments, 3 template failure,",
    "4 scenario mismatch"]

/-- What a program has printed, how it tells its failure, and the status it ends with. -/
structure Conclusion where
  status : Nat
  output : String
  error? : Option String
  deriving DecidableEq, Repr, Inhabited

namespace Conclusion

/-- The conclusion of a command. -/
def ofEnding (e : Ending) : Conclusion := ⟨e.status, e.output, e.failure?.map Failure.message⟩

/-- The conclusion of a command line that asks for no command. Misuse is not told as a failure. -/
def ofRefusal : Refusal → Conclusion
  | .misuse => ⟨2, "", none⟩
  | .help => ⟨0, (Ending.ofLines helpLines).output, none⟩
  | .version command => ⟨0, (Ending.ofLines [titleOf command ++ " " ++ version]).output, none⟩

/-- The conclusion of a command line, where the environment may name a configuration file. -/
def ofWords (environment : Option String) (words : List String) (s : Surroundings) : Conclusion :=
  match Invocation.ofWords environment words with
  | .ok i => ofEnding (i.run s)
  | .error refusal => ofRefusal refusal

end Conclusion
end GatewayMapping.CommandLine
