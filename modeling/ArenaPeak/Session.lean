import ArenaPeak.Guard
import ArenaPeak.Report

/-!
Sessions: a service, the symbols it works with, any number of compiler threads and the handles on
methods that a caller keeps for itself, driven one step at a time. A thread whose guard is open is
borrowed by it: until the guard is dropped the thread's task can be neither replaced nor ended by
hand. A step that fails says why; apart from a crash, which drops its guard on the way out, it
leaves the session as it was.
-/

namespace ArenaPeak

structure Worker where
  context : Context
  guard : Option Guard
  deriving DecidableEq

structure Session where
  service : Service
  symbols : SymbolStore
  workers : List Worker
  /-- The methods that are held on to by neither a task nor a record. -/
  handles : List Method
  nextThread : ThreadId

namespace Session

def new (inline : InlineOutput) : Session :=
  ⟨.new inline, .empty, [], [], .first⟩

/-- Threads are named by their place. A step that can end a compilation comes with the time at
which it does, and one that shows all records with the order in which they are given. -/
inductive Step where
  | enable
  | newContext
  | setTask (worker table : Nat) (method : MethodName) (kind : CompilerKind)
      (directive : Directive) (live : Option UInt32)
  | clearTask (worker : Nat)
  | task (worker : Nat)
  | setLive (worker : Nat) (n : UInt32)
  | start (worker : Nat)
  | arena (worker : Nat) (delta : Int64) (tag : ArenaTag)
  | finish (worker : Nat) (time : Seconds)
  | enter (worker : Nat)
  | close (worker : Nat) (time : Seconds)
  | crash (worker : Nat) (time : Seconds)
  | report (order : Arrangement) (human : Bool) (minSize : UInt64) (limit : Option Nat)
  | views (order : Arrangement) (minSize : UInt64)
  | lookup (table : Nat) (method : MethodName)
  | hold (table : Nat) (method : MethodName)
  | release (handle : Nat)
  | liveCount (table : Nat)
  | purge (table : Nat)

inductive Answer where
  | done
  | thread (id : ThreadId)
  | task (t : Option CompileTask)
  | flag (b : Bool)
  | text (s : String)
  | views (vs : List RecordView)
  | found (record : Option StatRecord) (permanent : Bool)
  | count (n : Nat)
  deriving DecidableEq

inductive Failure where
  | violated (v : Violation)
  | sinkFull
  | noWorker
  /-- A step needs a thread that is borrowed by its open guard. -/
  | borrowed
  deriving DecidableEq

namespace Failure

def message : Failure → String
  | .violated v => v.message
  | .sinkFull => "report output: sink full"
  | .noWorker => "no such compiler thread"
  | .borrowed => "the compiler thread is held by its open guard"

end Failure

/-- Every symbol held outside of the records. -/
def outside (s : Session) : List Symbol :=
  s.workers.flatMap (·.context.held) ++ s.handles.flatMap (·.symbols)

/-- Every symbol held by a task, a kept handle or a record. -/
def held (s : Session) : List Symbol :=
  s.outside ++ s.service.held

def putWorker (s : Session) (i : Nat) (w : Worker) : Session :=
  { s with workers := s.workers.set i w }

/-- A step on one thread, whatever it is doing. -/
def withWorker (s : Session) (i : Nat)
    (step : Worker → Except Failure Answer × Session) : Except Failure Answer × Session :=
  match s.workers[i]? with
  | some w => step w
  | none => (.error .noWorker, s)

/-- A step on the context of a thread that has no guard open. -/
def withContext (s : Session) (i : Nat)
    (step : Context → Except Failure Answer × Session) : Except Failure Answer × Session :=
  s.withWorker i fun w =>
    match w.guard with
    | none => step w.context
    | some _ => (.error .borrowed, s)

/-- The outcome of a hook: its answer and the session after it, or the session as it was. -/
def outcome (s : Session) (r : Except Violation (Answer × Session)) :
    Except Failure Answer × Session :=
  match r with
  | .ok (a, s) => (.ok a, s)
  | .error v => (.error (.violated v), s)

def dropGuard (f : Flavour) (s : Session) (i : Nat) (w : Worker) (g : Guard) (time : Seconds) :
    Except Violation Session := do
  let (service, symbols) ← g.drop f s.service s.symbols w.context time
  return { s with service, symbols }.putWorker i { w with guard := none }

def step (f : Flavour) (s : Session) : Step → Except Failure Answer × Session
  | .enable => s.outcome do
      let service ← s.service.enable
      return (.done, { s with service })
  | .newContext =>
      (.ok (.thread s.nextThread),
        { s with
          workers := s.workers ++ [⟨.new s.nextThread, none⟩]
          nextThread := s.nextThread.after 1 })
  | .setTask i table name kind directive live => s.withContext i fun c =>
      let (method, symbols) := s.symbols.internMethod s.held table name
      let c' := c.setTask ⟨method, kind, directive, live⟩
      (.ok (.task c.task), { s with symbols }.putWorker i ⟨c', none⟩)
  | .clearTask i => s.withContext i fun c =>
      (.ok (.task c.task), s.putWorker i ⟨c.clearTask, none⟩)
  | .task i => s.withWorker i fun w => (.ok (.task w.context.task), s)
  | .setLive i n => s.withWorker i fun w =>
      (.ok .done, s.putWorker i { w with context := w.context.setLive n })
  | .start i => s.withContext i fun c => s.outcome do
      let c ← s.service.start f c
      return (.done, s.putWorker i ⟨c, none⟩)
  | .arena i delta tag => s.withWorker i fun w => s.outcome do
      let (reached, c) ← match w.guard with
        | some _ => Guard.arena f s.service w.context delta tag
        | none => s.service.arena f w.context delta tag
      return (.flag reached, s.putWorker i { w with context := c })
  | .finish i time => s.withContext i fun c => s.outcome do
      let (service, symbols) ← s.service.finish f s.symbols c time
      return (.done, { s with service, symbols })
  | .enter i => s.withContext i fun c => s.outcome do
      let (g, c) ← Guard.enter f s.service c
      return (.flag g.active, s.putWorker i ⟨c, some g⟩)
  | .close i time => s.withWorker i fun w =>
      match w.guard with
      | none => (.ok (.flag false), s)
      | some g => s.outcome do
          let s ← s.dropGuard f i w g time
          return (.flag true, s)
  | .crash i time => s.withWorker i fun w =>
      match w.guard with
      | none => (.error (.violated .crashed), s)
      | some g =>
          match s.dropGuard f i w g time with
          | .ok s => (.error (.violated .crashed), s)
          | .error v => (.error (.violated v), s)
  | .report order human minSize limit =>
      match s.service.audit f minSize, s.service.reportWithin order human minSize limit with
      | .ok (), some text => (.ok (.text text), s)
      | .ok (), none => (.error .sinkFull, s)
      | .error v, _ => (.error (.violated v), s)
  | .views order minSize => s.outcome do
      s.service.audit f minSize
      return (.views (s.service.views order minSize), s)
  | .lookup table name =>
      let (method, symbols) := s.symbols.internMethod s.held table name
      (.ok (.found (s.service.get? method) (symbols.isPermanentMethod method)), { s with symbols })
  | .hold table name =>
      let (method, symbols) := s.symbols.internMethod s.held table name
      (.ok .done, { s with symbols, handles := method :: s.handles })
  | .release k => (.ok (.flag (k < s.handles.length)), { s with handles := s.handles.eraseIdx k })
  | .liveCount table => (.ok (.count (s.symbols.liveCount s.held table)), s)
  | .purge table =>
      (.ok (.count (s.symbols.deadCount s.held table)),
        { s with symbols := s.symbols.purge s.held table })

/-- The answers of a list of steps, and the session after them. -/
def run (f : Flavour) (s : Session) : List Step → List (Except Failure Answer) × Session
  | [] => ([], s)
  | st :: rest =>
      let (answer, s) := s.step f st
      let (answers, s) := run f s rest
      (answer :: answers, s)

end Session

end ArenaPeak
