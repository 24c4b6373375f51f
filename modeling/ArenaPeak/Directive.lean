/-!
The switches of one compilation: whether its peak is collected, and whether it is also printed
when the compilation ends.
-/

namespace ArenaPeak

structure Directive where
  collect : Bool
  print : Bool
  deriving DecidableEq

namespace Directive

/-- Neither collects nor prints. -/
def off : Directive :=
  ⟨false, false⟩

/-- The directive with the given switches, where printing turns collecting on. -/
def ofSwitches (collect print : Bool) : Directive :=
  ⟨collect || print, print⟩

def collecting : Directive :=
  ofSwitches true false

def printing : Directive :=
  ofSwitches true true

def collects (d : Directive) : Bool :=
  d.collect || d.print

def prints (d : Directive) : Bool :=
  d.print

end Directive

end ArenaPeak
