import ArenaPeak.Replay

/-!
The pool of workers behind a replay. A worker that is free takes the next place of a shared index; a
place beyond the trace ends its work. A worker that has taken a compilation runs it when it is next
picked. Which worker acts when is a list of picks, and what time it is when the compilation at a
place is over is told by a clock. A replay goes on until all workers are done.
-/

namespace ArenaPeak.Replay

inductive Stage where
  | free
  /-- It has taken a compilation, with its place in the trace, and has not run it yet. -/
  | holds (taken : TraceCompilation × Nat)
  | done
  deriving DecidableEq

structure Pool where
  progress : Progress
  next : Nat
  stages : List Stage
  /-- The compilations run so far in this order, each with the worker that ran it. -/
  log : List (Nat × TraceCompilation × Nat)

namespace Pool

def start (site : Site) (workers : Nat) : Pool :=
  ⟨.start site workers, 0, List.replicate workers .free, []⟩

def act (f : Flavour) (config : StatConfig) (t : Trace) (clock : Nat → Seconds) (p : Pool)
    (i : Nat) : Except Violation Pool :=
  match p.stages[i]? with
  | some .free =>
      match t.compilations.zipIdx[p.next]? with
      | some taken =>
          .ok { p with next := p.next + 1, stages := p.stages.set i (.holds taken) }
      | none => .ok { p with next := p.next + 1, stages := p.stages.set i .done }
  | some (.holds taken) => do
      let progress ← turn f config p.progress ⟨i, taken.1, clock taken.2⟩
      return { p with
        progress
        stages := p.stages.set i .free
        log := p.log ++ [(i, taken)] }
  | some .done | none => .ok p

def run (f : Flavour) (config : StatConfig) (t : Trace) (clock : Nat → Seconds) (p : Pool) :
    List Nat → Except Violation Pool
  | [] => .ok p
  | i :: picks => do
      let p ← act f config t clock p i
      run f config t clock p picks

/-- The work is finished when every worker's is. -/
def Finished (p : Pool) : Prop :=
  ∀ stage ∈ p.stages, stage = .done

instance (p : Pool) : Decidable p.Finished :=
  inferInstanceAs (Decidable (∀ stage ∈ p.stages, stage = .done))

def turns (clock : Nat → Seconds) (p : Pool) : List Turn :=
  p.log.map fun (i, c, k) => ⟨i, c, clock k⟩

/-- Picks after which all workers are done, whatever was picked before: one worker after the other
goes on until it finds the trace at its end. -/
def closing (compilations workers : Nat) : List Nat :=
  (List.range workers).flatMap fun i => List.replicate (2 * compilations + 2) i

end Pool

/-- How a replay goes where the program leaves it open: who is picked first, and what time it is
when the compilation at a place of the trace is over. -/
structure Course where
  picks : List Nat
  clock : Nat → Seconds

/-- Validates a trace and replays it by a pool of workers. -/
def replay (f : Flavour) (config : StatConfig) (site : Site) (t : Trace) (threads : UInt64)
    (course : Course) : Except Failure (Outcome × Site) :=
  match t.validate with
  | .error fault => .error (.invalid fault)
  | .ok () =>
      let workers := workerCount threads.toNat t.compilations.length
      let picks := course.picks ++ Pool.closing t.compilations.length workers
      match Pool.run f config t course.clock (.start site workers) picks with
      | .error v => .error (.violated v)
      | .ok p => .ok (⟨t.compilations.length, p.progress.tracked⟩, p.progress.site)

/-- A replay of a trace on a site, which is enabled first if that is wanted. -/
structure Run where
  enable : Bool
  threads : Option UInt64
  trace : Trace
  course : Course

/-- The outcome of a run and the site after it. -/
def perform (f : Flavour) (config : StatConfig) (site : Site) (r : Run) :
    Except Failure Outcome × Site :=
  let site := if r.enable then site.turnOn else site
  settle site (replay f config site r.trace (threadsFor r.threads r.trace config) r.course)

end ArenaPeak.Replay
