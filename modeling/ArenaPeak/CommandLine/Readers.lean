import ArenaPeak.CommandLine.Arguments
import ArenaPeak.Yaml.Codec

/-!
The readers that the program comes with: of arguments by its options, and of traces in YAML.
-/

namespace ArenaPeak.CommandLine

/-- What is written about arguments that are not understood. -/
def usage : String :=
  "Usage: memstat replay --trace <TRACE> [--threads <N>] [-H] [--min-size <BYTES>]\n" ++
  "                      [--command <COMMAND>]... [--format <text|json>]\n" ++
  "       memstat validate --trace <TRACE>\n"

def Readers.standard : Readers where
  invocation arguments :=
    match Invocation.ofArguments? arguments with
    | some i => .ok i
    | none => .error ⟨2, "", usage⟩
  trace text :=
    match Trace.ofYaml? text with
    | some t => .ok t
    | none => .error "not a trace in YAML"

end ArenaPeak.CommandLine
