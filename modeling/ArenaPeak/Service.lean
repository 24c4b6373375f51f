import ArenaPeak.Context
import ArenaPeak.Table

/-!
The statistics service and the hooks a compiler calls: a compilation starts, an arena changes, a
compilation ends. The service is enabled at most once and stays so; the table of records comes into
being at that moment, before the switch is flipped. In a debug build a hook checks its contract
before it does anything. What time it is when a compilation ends is up to the caller.
-/

namespace ArenaPeak

/-- Where the inline lines go. An output that accepts nothing loses them. -/
structure InlineOutput where
  writable : Bool
  lines : List String
  deriving DecidableEq

namespace InlineOutput

def print (o : InlineOutput) (line : String) : InlineOutput :=
  if o.writable then { o with lines := o.lines ++ [line] } else o

end InlineOutput

structure Service where
  /-- The switch that the hooks look at. -/
  enabled : Bool
  table : Option StatTable
  inline : InlineOutput
  deriving DecidableEq

namespace Service

def new (inline : InlineOutput) : Service :=
  ⟨false, none, inline⟩

/-- Makes an empty table where there is none. Says whether it did. -/
def createTable (s : Service) : Bool × Service :=
  match s.table with
  | none => (true, { s with table := some .empty })
  | some _ => (false, s)

/-- Makes the table, if the switch is off, and flips the switch. -/
def enable (s : Service) : Except Violation Service :=
  let (created, s) := if s.enabled then (false, s) else s.createTable
  if created then .ok { s with enabled := true } else .error .enabledTwice

def size (s : Service) : Nat :=
  match s.table with
  | some t => t.size
  | none => 0

def get? (s : Service) (m : Method) : Option StatRecord :=
  s.table.bind (·.get? m)

def held (s : Service) : List Symbol :=
  match s.table with
  | some t => t.records.flatMap (·.method.symbols)
  | none => []

/-- A compilation starts: the baseline of the thread's counter moves. -/
def start (f : Flavour) (s : Service) (c : Context) : Except Violation Context := do
  f.assert s.enabled .notEnabled
  return if s.enabled then c.startEpisode else c

/-- An arena grows or shrinks. Says whether a new peak was reached. -/
def arena (f : Flavour) (s : Service) (c : Context) (delta : Int64) (tag : ArenaTag) :
    Except Violation (Bool × Context) := do
  f.assert s.enabled .notEnabled
  if s.enabled then c.account f delta tag else return (false, c)

def inlineLine (f : Flavour) (kind : CompilerKind) (m : Method) (c : PeakCounter) : String :=
  kind.name ++ " Arena usage " ++ m.display ++ ": " ++ c.display f ++ "\n"

def commitOf (c : Context) (t : CompileTask) (time : Seconds) : Commit :=
  ⟨t.kind, c.counter.snapshot, time, c.thread⟩

def commit (f : Flavour) (s : Service) (table : StatTable) (c : Context) (t : CompileTask)
    (time : Seconds) : Service :=
  { s with
    table := some (table.upsert t.method (commitOf c t time))
    inline :=
      if t.directive.prints then s.inline.print (inlineLine f t.kind t.method c.counter)
      else s.inline }

/-- A compilation ends: its method becomes permanent and its peak is committed. -/
def finish (f : Flavour) (s : Service) (symbols : SymbolStore) (c : Context) (time : Seconds) :
    Except Violation (Service × SymbolStore) := do
  f.assert s.enabled .notEnabled
  match s.table with
  | none => return (s, symbols)
  | some table =>
      f.assert c.task.isSome .endWithoutTask
      match c.task with
      | none => return (s, symbols)
      | some t =>
          f.assert t.directive.collects .endWithoutTracking
          return (s.commit f table c t time, symbols.pinMethod t.method)

end Service

end ArenaPeak
