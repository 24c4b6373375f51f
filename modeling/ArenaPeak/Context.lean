import ArenaPeak.Counter
import ArenaPeak.Directive
import ArenaPeak.Method

/-!
The context of a compiler thread: its number, its peak counter and the compilation it is working
on. Contexts share nothing.
-/

namespace ArenaPeak

structure CompileTask where
  method : Method
  kind : CompilerKind
  directive : Directive
  /-- What the attached source of live node counts reads now, if one is attached. -/
  live : Option UInt32
  deriving DecidableEq

namespace CompileTask

/-- Live nodes are sampled for compilations by `c2` only. -/
def nodeSource (t : CompileTask) : Option UInt32 :=
  match t.kind with
  | .c2 => t.live
  | _ => none

/-- The task with its source, if it has one, reading `n`. -/
def setLive (t : CompileTask) (n : UInt32) : CompileTask :=
  { t with live := t.live.map fun _ => n }

end CompileTask

structure Context where
  thread : ThreadId
  counter : PeakCounter
  task : Option CompileTask
  deriving DecidableEq

namespace Context

def new (thread : ThreadId) : Context :=
  ⟨thread, .zero, none⟩

def setTask (c : Context) (t : CompileTask) : Context :=
  { c with task := some t }

def clearTask (c : Context) : Context :=
  { c with task := none }

def setLive (c : Context) (n : UInt32) : Context :=
  { c with task := c.task.map (·.setLive n) }

def startEpisode (c : Context) : Context :=
  { c with counter := c.counter.restart }

def account (f : Flavour) (c : Context) (delta : Int64) (tag : ArenaTag) :
    Except Violation (Bool × Context) := do
  let (reached, counter) ← c.counter.account f delta tag (c.task.bind (·.nodeSource))
  return (reached, { c with counter })

def held (c : Context) : List Symbol :=
  match c.task with
  | some t => t.method.symbols
  | none => []

end Context

end ArenaPeak
