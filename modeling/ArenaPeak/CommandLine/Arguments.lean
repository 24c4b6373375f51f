import ArenaPeak.CommandLine
import ArenaPeak.Text.Split

/-!
The arguments of the command line: a verb, then options in any order. An option is written long or
short; the value of one that takes a value is attached to it or is the next argument. Short
options can be put together. Only commands may be given more than once.
-/

namespace ArenaPeak.CommandLine

inductive Switch where
  | trace
  | threads
  | human
  | minSize
  | command
  | format
  deriving DecidableEq

namespace Switch

def takesValue (o : Switch) : Bool :=
  o != human

def ofLong? : String → Option Switch
  | "trace" => some trace
  | "threads" => some threads
  | "human-readable" => some human
  | "min-size" => some minSize
  | "command" => some command
  | "format" => some format
  | _ => none

def ofShort? : Char → Option Switch
  | 't' => some trace
  | 'H' => some human
  | _ => none

end Switch

/-- Options as they were given, each with its value; one that takes none has the empty value. -/
abbrev Given := List (Switch × String)

/-- Whether an argument is an option by its look; a lone dash is not. -/
def looksLikeOption (arg : List Char) : Bool :=
  match arg with
  | '-' :: _ :: _ => true
  | _ => false

/-- The options of a cluster of short ones, and the last of them if its value is still to come. -/
def readCluster : List Char → Option (Given × Option Switch)
  | [] => some ([], none)
  | c :: rest => do
      let o ← Switch.ofShort? c
      if o.takesValue then
        match rest with
        | [] => return ([], some o)
        | '=' :: value => return ([(o, String.ofList value)], none)
        | value => return ([(o, String.ofList value)], none)
      else
        let (given, pending) ← readCluster rest
        return ((o, "") :: given, pending)

/-- The options of a list of arguments, `pending` being one that waits for its value. -/
def readOptions (pending : Option Switch) : List String → Option Given
  | [] => if pending.isSome then none else some []
  | arg :: rest =>
      match pending with
      | some o =>
          if looksLikeOption arg.toList then none
          else (readOptions none rest).map ((o, arg) :: ·)
      | none =>
          match arg.toList with
          | ['-', '-'] => if rest.isEmpty then some [] else none
          | '-' :: '-' :: body =>
              match Text.splitFirst ['='] body with
              | some (name, value) => do
                  let o ← Switch.ofLong? (String.ofList name)
                  if o.takesValue then
                    (readOptions none rest).map ((o, String.ofList value) :: ·)
                  else none
              | none => do
                  let o ← Switch.ofLong? (String.ofList body)
                  if o.takesValue then readOptions (some o) rest
                  else (readOptions none rest).map ((o, "") :: ·)
          | '-' :: c :: cs => do
              let (given, pending) ← readCluster (c :: cs)
              (readOptions pending rest).map (given ++ ·)
          | _ => none

namespace Given

def values (g : Given) (o : Switch) : List String :=
  (g.filter (·.1 == o)).map (·.2)

/-- Whether every option but commands is given once at most. -/
def isSingle (g : Given) : Bool :=
  g.all fun (o, _) => o == .command || (g.values o).length ≤ 1

def number? (g : Given) (o : Switch) : Option (Option UInt64) :=
  match (g.values o).head? with
  | none => some none
  | some s => (parseWord s.toList).map some

/-- The path of the trace, which must be given and not be empty. -/
def trace? (g : Given) : Option String :=
  (g.values .trace).head?.filter (!·.isEmpty)

def format? (g : Given) : Option Format :=
  match (g.values .format).head? with
  | none | some "text" => some .text
  | some "json" => some .json
  | some _ => none

end Given

def Invocation.ofArguments? : List String → Option Invocation
  | "replay" :: rest => do
      let g ← readOptions none rest
      if !Given.isSingle g then none
      else
        return .replay {
          trace := ← Given.trace? g
          threads := ← Given.number? g .threads
          human := !(Given.values g .human).isEmpty
          minSize := ← Given.number? g .minSize
          commands := Given.values g .command
          format := ← Given.format? g }
  | "validate" :: rest => do
      let g ← readOptions none rest
      if g.all (·.1 == .trace) && Given.isSingle g then return .validate (← Given.trace? g)
      else none
  | _ => none

end ArenaPeak.CommandLine
