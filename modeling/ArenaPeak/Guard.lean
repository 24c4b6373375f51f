import ArenaPeak.Service

/-!
A guard spans one compilation: opening it starts the compilation if that is to be tracked, and
dropping it, on whatever way out, ends the compilation if it was started. Whether a guard is active
is decided when it is opened.
-/

namespace ArenaPeak

structure Guard where
  active : Bool
  deriving DecidableEq

namespace Guard

/-- Whether a compilation is tracked: the service is on and the task's directive collects. -/
def tracks (s : Service) (c : Context) : Bool :=
  s.enabled && c.task.any (·.directive.collects)

def enter (f : Flavour) (s : Service) (c : Context) : Except Violation (Guard × Context) := do
  if tracks s c then
    let c ← s.start f c
    return (⟨true⟩, c)
  else
    return (⟨false⟩, c)

/-- Forwards an arena event, tracked or not, as long as the service is on. -/
def arena (f : Flavour) (s : Service) (c : Context) (delta : Int64) (tag : ArenaTag) :
    Except Violation (Bool × Context) :=
  if s.enabled then s.arena f c delta tag else .ok (false, c)

def drop (f : Flavour) (g : Guard) (s : Service) (symbols : SymbolStore) (c : Context)
    (time : Seconds) : Except Violation (Service × SymbolStore) :=
  if g.active then s.finish f symbols c time else .ok (s, symbols)

end Guard

end ArenaPeak
