import ArenaPeak.Guard
import ArenaPeak.Trace

/-!
Replaying traces. Workers with contexts of their own take the compilations of a trace one after the
other and drive the same hooks a compiler would. Which worker takes which compilation, in what
order, and when each is over, is a list of turns; the trace is validated before any turn is taken.
-/

namespace ArenaPeak

/-- What the workers share: the service, the symbols, the handles on symbols that are held outside
of the replay, and the number of the next thread. -/
structure Site where
  service : Service
  symbols : SymbolStore
  outside : List Symbol
  nextThread : ThreadId

namespace Site

def new (inline : InlineOutput) : Site :=
  ⟨.new inline, .empty, [], .first⟩

/-- Every handle held while no worker has a task. -/
def held (s : Site) : List Symbol :=
  s.outside ++ s.service.held

/-- The record of the method interned now under a name. -/
def record? (s : Site) (table : Nat) (name : MethodName) : Option StatRecord :=
  s.service.get? (s.symbols.internMethod s.held table name).1

def turnOn (s : Site) : Site :=
  match s.service.enable with
  | .ok service => { s with service }
  | .error _ => s

end Site

namespace Replay

def nameOf (c : TraceCompilation) : MethodName :=
  ⟨c.owner, c.method, c.signature⟩

/-- The directive in force: off while the service is, else the explicit one, else that of the
configuration. -/
def directiveOf (s : Service) (config : StatConfig) (c : TraceCompilation) (m : Method) :
    Directive :=
  if s.enabled then c.directive.getD (config.directiveFor m) else .off

/-- One event: the live nodes change first, then the arena does. -/
def playEvent (f : Flavour) (s : Service) (ctx : Context) (e : TraceEvent) :
    Except Violation Context := do
  let ctx := match e.liveNodes with
    | some n => ctx.setLive n
    | none => ctx
  let (_, ctx) ← Guard.arena f s ctx e.delta e.tag
  return ctx

def playEvents (f : Flavour) (s : Service) (ctx : Context) :
    List TraceEvent → Except Violation Context
  | [] => .ok ctx
  | e :: es => do
      let ctx ← playEvent f s ctx e
      playEvents f s ctx es

/-- One compilation on one worker, over at a time. Says whether it was tracked. -/
def compileOne (f : Flavour) (config : StatConfig) (site : Site) (ctx : Context)
    (c : TraceCompilation) (time : Seconds) : Except Violation (Bool × Site × Context) := do
  let (method, symbols) :=
    site.symbols.internMethod (ctx.held ++ site.held) 0 (nameOf c)
  let directive := directiveOf site.service config c method
  let ctx := ctx.setTask ⟨method, c.compiler, directive, some 0⟩
  let (guard, ctx) ← Guard.enter f site.service ctx
  let ctx ← playEvents f site.service ctx c.events
  let (service, symbols) ← guard.drop f site.service symbols ctx time
  return (guard.active, { site with service, symbols }, ctx.clearTask)

/-- New workers, their threads numbered from the first one on. -/
def freshWorkers (first : ThreadId) (n : Nat) : List Context :=
  (List.range n).map fun i => .new (first.after i)

structure Progress where
  site : Site
  workers : List Context
  /-- How many of the compilations run so far were tracked. -/
  tracked : Nat

def Progress.start (site : Site) (workers : Nat) : Progress :=
  ⟨{ site with nextThread := site.nextThread.after workers },
    freshWorkers site.nextThread workers, 0⟩

/-- One turn: the worker at a place runs a compilation, which is over at a time. -/
structure Turn where
  worker : Nat
  compilation : TraceCompilation
  time : Seconds

/-- A turn of a worker that is not there is not taken. -/
def turn (f : Flavour) (config : StatConfig) (p : Progress) (t : Turn) :
    Except Violation Progress :=
  match p.workers[t.worker]? with
  | none => .ok p
  | some ctx => do
      let (active, site, ctx) ← compileOne f config p.site ctx t.compilation t.time
      return ⟨site, p.workers.set t.worker ctx, p.tracked + if active then 1 else 0⟩

def play (f : Flavour) (config : StatConfig) (p : Progress) : List Turn → Except Violation Progress
  | [] => .ok p
  | t :: turns => do
      let p ← turn f config p t
      play f config p turns

/-- At least one worker, and no more than there are compilations. -/
def workerCount (threads compilations : Nat) : Nat :=
  max 1 (min threads (max compilations 1))

/-- All turns taken by the first worker, in the order of the trace. -/
def inOrder (t : Trace) (clock : Nat → Seconds) : List Turn :=
  t.compilations.zipIdx.map fun (c, k) => ⟨0, c, clock k⟩

structure Outcome where
  compilations : Nat
  /-- How many compilations ran with collection on. -/
  tracked : Nat
  deriving DecidableEq

inductive Failure where
  | invalid (fault : Trace.Fault)
  | violated (v : Violation)
  deriving DecidableEq

namespace Failure

def message : Failure → String
  | .invalid fault => fault.message
  | .violated v => v.message

end Failure

def replayIn (f : Flavour) (config : StatConfig) (site : Site) (t : Trace) (workers : Nat)
    (turns : List Turn) : Except Failure (Outcome × Site) :=
  match t.validate with
  | .error fault => .error (.invalid fault)
  | .ok () =>
      match play f config (.start site workers) turns with
      | .error v => .error (.violated v)
      | .ok p => .ok (⟨t.compilations.length, p.tracked⟩, p.site)

/-- The number of threads asked for: on the call, else in the trace, else in the configuration. -/
def threadsFor (asked : Option UInt64) (t : Trace) (config : StatConfig) : UInt64 :=
  asked.getD (t.threads.getD config.threads)

/-- The outcome of a replay and the site after it; one that fails leaves the site as it was. -/
def settle (site : Site) : Except Failure (Outcome × Site) → Except Failure Outcome × Site
  | .ok (outcome, site) => (.ok outcome, site)
  | .error e => (.error e, site)

end Replay

end ArenaPeak
