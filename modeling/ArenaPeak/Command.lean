import ArenaPeak.Directive
import ArenaPeak.Pattern

/-!
Commands turn tracking on for the methods of a pattern. They are written `mode,pattern` or just
`pattern`, and lists of them are separated by semicolons.
-/

namespace ArenaPeak

inductive StatMode where
  | collect
  | print
  deriving DecidableEq

namespace StatMode

def name : StatMode → String
  | .collect => "collect"
  | .print => "print"

def ofName? : String → Option StatMode
  | "collect" => some .collect
  | "print" => some .print
  | _ => none

theorem ofName?_name (m : StatMode) : ofName? m.name = some m := by
  cases m <;> rfl

def directive : StatMode → Directive
  | .collect => .collecting
  | .print => .printing

/-- Reads a mode word, in any case and with white space around it. -/
def parse (cs : List Char) : Except ConfigError StatMode :=
  let word := String.ofList (Text.lower (Text.trim cs))
  match ofName? word with
  | some m => .ok m
  | none => .error (.unknownMode word)

end StatMode

structure StatCommand where
  mode : StatMode
  pattern : MethodPattern
  deriving DecidableEq

namespace StatCommand

def directive (c : StatCommand) : Directive :=
  c.mode.directive

def applies (c : StatCommand) (m : Method) : Bool :=
  c.pattern.covers m

/-- Reads one command. Without a comma the mode is `collect`. -/
def parseChars (cs : List Char) : Except ConfigError StatCommand :=
  match Text.splitFirst [','] cs with
  | some (word, rest) => do
      let mode ← StatMode.parse word
      let pattern ← MethodPattern.parse (String.ofList (Text.trim rest))
      return ⟨mode, pattern⟩
  | none => do
      let pattern ← MethodPattern.parse (String.ofList (Text.trim cs))
      return ⟨.collect, pattern⟩

def parse (s : String) : Except ConfigError StatCommand :=
  parseChars s.toList

/-- The entries of a list of commands: what stands between the semicolons, blank ones left out. -/
def entries (cs : List Char) : List (List Char) :=
  ((Text.splitAll ';' cs).map Text.trim).filter (!·.isEmpty)

/-- Reads a list of commands; the first entry that cannot be read decides the error. -/
def parseList (s : String) : Except ConfigError (List StatCommand) :=
  (entries s.toList).mapM parseChars

/-- The directive of the last command that applies to a method. -/
def directiveFor (commands : List StatCommand) (m : Method) : Directive :=
  match commands.reverse.find? (·.applies m) with
  | some c => c.directive
  | none => .off

end StatCommand

end ArenaPeak
