import ArenaPeak.Config
import ArenaPeak.FileTree
import ArenaPeak.Json.Codec
import ArenaPeak.Json.Writer
import ArenaPeak.Replay.Pool

/-!
The program as a function: from its arguments, its environment and its files to what it prints and
the code it ends with. A replay reads and validates the trace, then the configuration of the
environment, then the commands of the arguments; the first of these that fails decides the message.
How arguments are read, and how a text is read as a trace, is left to readers; they are given to the
program, as are the way in which the workers of a replay take turns and the order of a table.
-/

namespace ArenaPeak.CommandLine

inductive Format where
  | text
  | json
  deriving DecidableEq

structure ReplayOptions where
  trace : String
  threads : Option UInt64
  human : Bool
  minSize : Option UInt64
  commands : List String
  format : Format
  deriving DecidableEq

inductive Invocation where
  | replay (options : ReplayOptions)
  | validate (trace : String)
  deriving DecidableEq

/-- What is written about arguments that are refused, and the code to end with. -/
structure Refusal where
  code : Nat
  stdout : String
  stderr : String
  deriving DecidableEq

/-- Readers of arguments and of traces. Where a text is no trace, its reader gives the reason. -/
structure Readers where
  invocation : List String → Except Refusal Invocation
  trace : String → Except String Trace

inductive Failure where
  | unreadable (e : FileError)
  | notText
  | malformed (reason : String)
  | invalid (fault : Trace.Fault)
  | config (e : ConfigError)
  | violated (v : Violation)
  deriving DecidableEq

namespace Failure

def message : Failure → String
  | .unreadable e => e.message
  | .notText => "stream did not contain valid UTF-8"
  | .malformed reason => "trace parse: " ++ reason
  | .invalid fault => fault.message
  | .config e => e.message
  | .violated v => v.message

end Failure

inductive Outcome where
  | refused (refusal : Refusal)
  | failed (verb : String) (cause : Failure)
  | printed (text : String)
  deriving DecidableEq

namespace Outcome

def code : Outcome → Nat
  | .refused refusal => refusal.code
  | .failed _ _ => 1
  | .printed _ => 0

def stdout : Outcome → String
  | .refused refusal => refusal.stdout
  | .failed _ _ => ""
  | .printed text => text

def stderr : Outcome → String
  | .refused refusal => refusal.stderr
  | .failed verb cause => verb ++ ": " ++ cause.message ++ "\n"
  | .printed _ => ""

end Outcome

structure Surroundings where
  environment : String → Option String
  file : String → Except FileError ByteArray
  course : Replay.Course
  order : Arrangement

def readTrace (readers : Readers) (w : Surroundings) (path : String) : Except Failure Trace :=
  match w.file path with
  | .error e => .error (.unreadable e)
  | .ok bytes =>
      match String.fromUTF8? bytes with
      | none => .error .notText
      | some text =>
          match readers.trace text with
          | .error reason => .error (.malformed reason)
          | .ok t =>
              match t.validate with
              | .error fault => .error (.invalid fault)
              | .ok () => .ok t

/-- The configuration of a replay: that of the environment, with the options over it and the
commands after it. -/
def configFor (w : Surroundings) (o : ReplayOptions) : Except ConfigError StatConfig := do
  let base ← StatConfig.ofEnvironment w.environment
  let commands ← o.commands.mapM StatCommand.parse
  return { base with
    enabled := true
    commands := base.commands ++ commands
    humanReadable := base.humanReadable || o.human
    minSize := o.minSize.getD base.minSize }

/-- The lines printed while a site was worked on, then its report. -/
def output (site : Site) (order : Arrangement) (config : StatConfig) (format : Format) : String :=
  String.join site.service.inline.lines ++
    match format with
    | .text => site.service.report order config.humanReadable config.minSize
    | .json => (site.service.jsonReport order config.minSize).pretty ++ "\n"

def replay (f : Flavour) (readers : Readers) (w : Surroundings) (o : ReplayOptions) :
    Except Failure String := do
  let t ← readTrace readers w o.trace
  let config ← (configFor w o).mapError .config
  let site := Site.new ⟨true, []⟩
  let site := if config.shouldEnable then site.turnOn else site
  match Replay.replay f config site t (Replay.threadsFor o.threads t config) w.course with
  | .ok (_, site) => do
      (site.service.audit f config.minSize).mapError .violated
      return output site w.order config o.format
  | .error (.invalid fault) => .error (.invalid fault)
  | .error (.violated v) => .error (.violated v)

def run (f : Flavour) (readers : Readers) (w : Surroundings) (arguments : List String) : Outcome :=
  match readers.invocation arguments with
  | .error refusal => .refused refusal
  | .ok (.replay o) =>
      match replay f readers w o with
      | .ok text => .printed text
      | .error cause => .failed "Error" cause
  | .ok (.validate path) =>
      match readTrace readers w path with
      | .ok _ => .printed "✓ Trace is valid\n"
      | .error cause => .failed "Validation failed" cause

end ArenaPeak.CommandLine
