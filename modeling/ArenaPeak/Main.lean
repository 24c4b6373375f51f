import ArenaPeak.CommandLine.Readers

/-!
The program: gathers the environment and the trace file, and prints what the command line yields.
-/

namespace ArenaPeak.CommandLine

def variableNames : List String :=
  [ "MEMSTAT_ENABLED", "MEMSTAT_COMMANDS", "MEMSTAT_HUMAN_READABLE", "MEMSTAT_MIN_SIZE",
    "MEMSTAT_THREADS" ]

/-- The number of a cause, which the system gives with either sign. -/
def causeNumber (n : UInt32) : Nat :=
  (min n (0 - n)).toNat

/-- Why the system could not read a file. All that has no cause of its own counts as a failure of
input and output. -/
def causeOf : IO.Error → FileError
  | .noFileOrDirectory _ _ _ => .missing
  | .permissionDenied _ _ _ => .denied
  | .inappropriateType _ n reason | .invalidArgument _ n reason =>
      match causeNumber n with
      | 20 => .notFolder
      | 21 => .isFolder
      | 36 => .nameTooLong
      | number => .other number reason
  | _ => .other 5 "Input/output error"

def readFile (path : String) : IO (Except FileError ByteArray) := do
  try
    return .ok (← IO.FS.readBinFile path)
  catch e =>
    return .error (causeOf e)

def Invocation.path : Invocation → String
  | .replay o => o.trace
  | .validate path => path

end ArenaPeak.CommandLine

open ArenaPeak CommandLine in
def main (arguments : List String) : IO UInt32 := do
  let settings ← variableNames.mapM fun name => do return (name, ← IO.getEnv name)
  let bytes ← match Invocation.ofArguments? arguments with
    | some i => readFile i.path
    | none => pure (.error .missing)
  let around : Surroundings :=
    ⟨fun name => (settings.lookup name).join, fun _ => bytes, ⟨[], fun _ => .zero⟩, .asCommitted⟩
  let outcome := run .release .standard around arguments
  IO.print outcome.stdout
  IO.eprint outcome.stderr
  return UInt32.ofNat outcome.code
