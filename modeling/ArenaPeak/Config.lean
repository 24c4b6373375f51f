import ArenaPeak.Command

/-!
The configuration of the statistics and how environment variables set it. Words and numbers that
cannot be read leave the default in place; commands must be readable.
-/

namespace ArenaPeak

structure StatConfig where
  /-- Turns the service on even without commands. -/
  enabled : Bool
  commands : List StatCommand
  humanReadable : Bool
  minSize : UInt64
  threads : UInt64
  deriving DecidableEq

/-- The largest number of bytes, and of anything else counted in 64 bits. -/
def maxWord : Nat :=
  UInt64.size - 1

/-- Reads a decimal number of at most 64 bits, with at most one plus sign before it. -/
def parseWord (cs : List Char) : Option UInt64 :=
  let digits := match cs with
    | '+' :: rest => rest
    | _ => cs
  if digits.isEmpty || !digits.all Char.isDigit then none
  else
    let n := digits.foldl (fun n c => 10 * n + (c.toNat - '0'.toNat)) 0
    if n ≤ maxWord then some (UInt64.ofNat n) else none

def parseSwitch (s : String) : Option Bool :=
  match String.ofList (Text.lower (Text.trim s.toList)) with
  | "1" | "true" | "yes" | "on" => some true
  | "0" | "false" | "no" | "off" => some false
  | _ => none

namespace StatConfig

def default : StatConfig :=
  ⟨false, [], false, 0, 2⟩

def ofEnvironment (environment : String → Option String) : Except ConfigError StatConfig := do
  let commands ← match environment "MEMSTAT_COMMANDS" with
    | some s => StatCommand.parseList s
    | none => .ok default.commands
  return {
    enabled := ((environment "MEMSTAT_ENABLED").bind parseSwitch).getD default.enabled
    commands
    humanReadable :=
      ((environment "MEMSTAT_HUMAN_READABLE").bind parseSwitch).getD default.humanReadable
    minSize :=
      ((environment "MEMSTAT_MIN_SIZE").bind fun s => parseWord s.toList).getD default.minSize
    threads :=
      match (environment "MEMSTAT_THREADS").bind fun s => parseWord s.toList with
      | some n => max n 1
      | none => default.threads }

/-- A command implies that the service must run. -/
def shouldEnable (c : StatConfig) : Bool :=
  c.enabled || !c.commands.isEmpty

def directiveFor (c : StatConfig) (m : Method) : Directive :=
  StatCommand.directiveFor c.commands m

end StatConfig

end ArenaPeak
