import ArenaPeak.Directive
import ArenaPeak.Tag

/-!
Recorded traces: a list of compilations with the arena events each one produced. A trace is valid
when every compilation is named, no explicit directive prints without collecting, and no
compilation ever frees more than it has allocated.
-/

namespace ArenaPeak

structure TraceEvent where
  delta : Int64
  tag : ArenaTag
  /-- The live nodes from this event on, where the trace says so. -/
  liveNodes : Option UInt32
  deriving DecidableEq

structure TraceCompilation where
  owner : String
  method : String
  signature : String
  compiler : CompilerKind
  /-- Explicit switches; without them the commands of the configuration decide. -/
  directive : Option Directive
  events : List TraceEvent
  deriving DecidableEq

structure Trace where
  threads : Option UInt64
  compilations : List TraceCompilation
  deriving DecidableEq

namespace Trace

/-- What makes a trace invalid, with the place of the compilation in it. -/
inductive Fault where
  | unnamed (index : Nat)
  | printsUncollected (index : Nat) (owner method : String)
  | freesTooMuch (index : Nat) (owner method : String) (event : Nat)
  deriving DecidableEq

namespace Fault

def place (index : Nat) (owner method : String) : String :=
  "compilation #" ++ toString index ++ " (" ++ owner ++ "::" ++ method ++ ")"

def message : Fault → String
  | .unnamed index =>
      "invalid trace: compilation #" ++ toString index ++ ": class and method must be non-empty"
  | .printsUncollected index owner method =>
      "invalid trace: " ++ place index owner method ++ ": print requires collect"
  | .freesTooMuch index owner method event =>
      "invalid trace: " ++ place index owner method ++ ": event #" ++ toString event ++
        " frees more than was allocated"

end Fault

/-- A running total moved by an amount, held within the range of a signed word. -/
def addTotal (total : Int) (delta : Int64) : Int :=
  max Int64.minValue.toInt (min Int64.maxValue.toInt (total + delta.toInt))

/-- The first event after which the running total is negative, counted from `index`. -/
def firstOverfree (total : Int) (index : Nat) : List TraceEvent → Option Nat
  | [] => none
  | e :: es =>
      let total := addTotal total e.delta
      if total < 0 then some index else firstOverfree total (index + 1) es

def faultOf (index : Nat) (c : TraceCompilation) : Option Fault :=
  if c.owner.isEmpty || c.method.isEmpty then some (.unnamed index)
  else if c.directive.any fun d => d.print && !d.collect then
    some (.printsUncollected index c.owner c.method)
  else
    (firstOverfree 0 0 c.events).map fun event => .freesTooMuch index c.owner c.method event

/-- The first fault of a list of compilations, which are counted from `index`. -/
def firstFault (index : Nat) : List TraceCompilation → Option Fault
  | [] => none
  | c :: cs =>
      match faultOf index c with
      | some fault => some fault
      | none => firstFault (index + 1) cs

def validate (t : Trace) : Except Fault Unit :=
  match firstFault 0 t.compilations with
  | some fault => .error fault
  | none => .ok ()

end Trace

end ArenaPeak
