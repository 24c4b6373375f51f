import ArenaPeak.Proofs.Operations

/-!
Outputs that accept nothing. A line that cannot be printed is lost, and the commit goes on: whatever
is done with a mute output is done as with any other, answer by answer, and all that differs is the
output itself.
-/

namespace ArenaPeak

/-- Steps in sequence that come to the same but for what is made of it at the end. -/
theorem bind_eq_map {ε α β γ : Type} {x : Except ε α} {g : α → Except ε β} {g' : α → Except ε γ}
    {h : β → γ} (same : ∀ a, g' a = (g a).map h) : x >>= g' = (x >>= g).map h := by
  cases x with
  | error e => rfl
  | ok a => exact same a

theorem InlineOutput.print_of_mute {o : InlineOutput} (mute : o.writable = false) (line : String) :
    o.print line = o := by
  rw [print, mute]
  rfl

namespace Service

/-- The service with another output in place of its own. -/
def withOutput (s : Service) (o : InlineOutput) : Service :=
  { s with inline := o }

theorem enable_withOutput (s : Service) (o : InlineOutput) :
    (s.withOutput o).enable = s.enable.map (·.withOutput o) := by
  obtain ⟨enabled, table, inline⟩ := s
  cases enabled <;> cases table <;> rfl

variable {o : InlineOutput} (mute : o.writable = false)

include mute

theorem commit_withOutput (f : Flavour) (s : Service) (table : StatTable) (c : Context)
    (t : CompileTask) (time : Seconds) :
    (s.withOutput o).commit f table c t time = (s.commit f table c t time).withOutput o := by
  simp only [commit, withOutput, InlineOutput.print_of_mute mute, ite_self]

theorem finish_withOutput (f : Flavour) (s : Service) (symbols : SymbolStore) (c : Context)
    (time : Seconds) :
    (s.withOutput o).finish f symbols c time =
      (s.finish f symbols c time).map fun r => (r.1.withOutput o, r.2) := by
  obtain ⟨enabled, table, inline⟩ := s
  obtain ⟨thread, counter, task⟩ := c
  refine bind_eq_map fun _ => ?_
  cases table with
  | none => rfl
  | some table =>
      refine bind_eq_map fun _ => ?_
      cases task with
      | none => rfl
      | some t =>
          refine bind_eq_map fun _ => ?_
          exact congrArg (fun s => Except.ok (s, symbols.pinMethod t.method))
            (commit_withOutput mute f ⟨enabled, some table, inline⟩ table _ t time)

theorem drop_withOutput (f : Flavour) (g : Guard) (s : Service) (symbols : SymbolStore)
    (c : Context) (time : Seconds) :
    g.drop f (s.withOutput o) symbols c time =
      (g.drop f s symbols c time).map fun r => (r.1.withOutput o, r.2) := by
  rw [Guard.drop, Guard.drop]
  split
  · exact finish_withOutput mute f s symbols c time
  · rfl

end Service

/-! ### Replays -/

def Site.withOutput (site : Site) (o : InlineOutput) : Site :=
  { site with service := site.service.withOutput o }

namespace Replay

def Progress.withOutput (p : Progress) (o : InlineOutput) : Progress :=
  { p with site := p.site.withOutput o }

theorem playEvents_withOutput (f : Flavour) (s : Service) (o : InlineOutput) (ctx : Context)
    (es : List TraceEvent) :
    playEvents f (s.withOutput o) ctx es = playEvents f s ctx es := by
  induction es generalizing ctx with
  | nil => rfl
  | cons e es ih =>
      rw [playEvents, playEvents]
      exact congrArg (playEvent f s ctx e >>= ·) (funext ih)

variable {o : InlineOutput} (mute : o.writable = false) (f : Flavour) (config : StatConfig)

include mute

theorem compileOne_withOutput (site : Site) (ctx : Context) (c : TraceCompilation)
    (time : Seconds) :
    compileOne f config (site.withOutput o) ctx c time =
      (compileOne f config site ctx c time).map fun r => (r.1, r.2.1.withOutput o, r.2.2) := by
  rw [compileOne_bind, compileOne_bind]
  refine bind_eq_map fun entered => ?_
  simp only [Site.withOutput, playEvents_withOutput, Service.drop_withOutput mute]
  refine bind_eq_map fun ctx' => ?_
  change Except.bind (Except.map _
    (entered.1.drop f site.service (interned site ctx c).2 ctx' time)) _ = _
  cases entered.1.drop f site.service (interned site ctx c).2 ctx' time <;> rfl

theorem turn_withOutput (p : Progress) (t : Turn) :
    turn f config (p.withOutput o) t = (turn f config p t).map (·.withOutput o) := by
  have workers : (p.withOutput o).workers = p.workers := rfl
  have site : (p.withOutput o).site = p.site.withOutput o := rfl
  rw [turn, turn, workers, site]
  cases p.workers[t.worker]? with
  | none => rfl
  | some ctx =>
      simp only [compileOne_withOutput mute]
      cases compileOne f config p.site ctx t.compilation t.time <;> rfl

theorem play_withOutput (p : Progress) (turns : List Turn) :
    play f config (p.withOutput o) turns = (play f config p turns).map (·.withOutput o) := by
  induction turns generalizing p with
  | nil => rfl
  | cons t turns ih =>
      rw [play, play, turn_withOutput mute]
      cases turn f config p t with
      | error v => rfl
      | ok p => exact ih p

theorem Job.run_withOutput (job : Job) (site : Site) :
    job.run f (site.withOutput o) = ((job.run f site).1, (job.run f site).2.withOutput o) := by
  rw [run, run, replayIn, replayIn]
  cases job.trace.validate with
  | error fault => rfl
  | ok _ =>
      have played := play_withOutput mute f job.config (.start site job.workers) job.turns
      change play f job.config (.start (site.withOutput o) job.workers) job.turns = _ at played
      simp only [played]
      cases play f job.config (.start site job.workers) job.turns <;> rfl

end Replay

/-! ### Sessions -/

namespace Session

def withOutput (s : Session) (o : InlineOutput) : Session :=
  { s with service := s.service.withOutput o }

variable {s : Session} {i : Nat} {o : InlineOutput}

theorem withWorker_withOutput {step step' : Worker → Except Failure Answer × Session}
    (same : ∀ w, step' w = ((step w).1, (step w).2.withOutput o)) :
    (s.withOutput o).withWorker i step' =
      ((s.withWorker i step).1, (s.withWorker i step).2.withOutput o) := by
  have workers : (s.withOutput o).workers = s.workers := rfl
  rw [withWorker, withWorker, workers]
  cases s.workers[i]? with
  | none => rfl
  | some w => exact same w

theorem withContext_withOutput {step step' : Context → Except Failure Answer × Session}
    (same : ∀ c, step' c = ((step c).1, (step c).2.withOutput o)) :
    (s.withOutput o).withContext i step' =
      ((s.withContext i step).1, (s.withContext i step).2.withOutput o) := by
  refine withWorker_withOutput fun w => ?_
  obtain ⟨c, guard⟩ := w
  cases guard with
  | none => exact same c
  | some g => rfl

theorem outcome_withOutput {x x' : Except Violation (Answer × Session)}
    (same : x' = x.map fun r => (r.1, r.2.withOutput o)) :
    (s.withOutput o).outcome x' = ((s.outcome x).1, (s.outcome x).2.withOutput o) := by
  subst same
  cases x <;> rfl

/-- A hook that does not look at the output. -/
theorem outcome_bind_withOutput {α : Type} (x : Except Violation α)
    {g g' : α → Except Violation (Answer × Session)}
    (same : ∀ a, g' a = (g a).map fun r => (r.1, r.2.withOutput o)) :
    (s.withOutput o).outcome (x >>= g') =
      ((s.outcome (x >>= g)).1, (s.outcome (x >>= g)).2.withOutput o) :=
  outcome_withOutput (bind_eq_map same)

variable (mute : o.writable = false)

include mute

theorem dropGuard_withOutput (f : Flavour) (s : Session) (i : Nat) (w : Worker) (g : Guard)
    (time : Seconds) :
    (s.withOutput o).dropGuard f i w g time =
      (s.dropGuard f i w g time).map (·.withOutput o) := by
  rw [dropGuard, dropGuard]
  change (g.drop f (s.service.withOutput o) s.symbols w.context time >>= _) = _
  rw [Service.drop_withOutput mute]
  cases g.drop f s.service s.symbols w.context time <;> rfl

/-- A step comes to the same whether or not its line can be printed. -/
theorem step_withOutput (f : Flavour) (s : Session) (st : Step) :
    (s.withOutput o).step f st = ((s.step f st).1, (s.step f st).2.withOutput o) := by
  cases st with
  | enable =>
      refine outcome_withOutput ?_
      change ((s.service.withOutput o).enable >>= _) = _
      rw [Service.enable_withOutput]
      cases s.service.enable <;> rfl
  | setTask i table name kind directive live =>
      rw [step, step]
      exact withContext_withOutput fun c => rfl
  | clearTask i =>
      rw [step, step]
      exact withContext_withOutput fun c => rfl
  | task i | setLive i n => exact withWorker_withOutput fun w => rfl
  | start i =>
      rw [step, step]
      exact withContext_withOutput fun c =>
        outcome_bind_withOutput (s.service.start f c) fun _ => rfl
  | arena i delta tag =>
      refine withWorker_withOutput fun w => ?_
      obtain ⟨c, guard⟩ := w
      cases guard with
      | none => exact outcome_bind_withOutput (s.service.arena f c delta tag) fun _ => rfl
      | some g => exact outcome_bind_withOutput (Guard.arena f s.service c delta tag) fun _ => rfl
  | finish i time =>
      rw [step, step]
      refine withContext_withOutput fun c => outcome_withOutput ?_
      change ((s.service.withOutput o).finish f s.symbols c time >>= _) = _
      rw [Service.finish_withOutput mute]
      cases s.service.finish f s.symbols c time <;> rfl
  | enter i =>
      rw [step, step]
      exact withContext_withOutput fun c =>
        outcome_bind_withOutput (Guard.enter f s.service c) fun _ => rfl
  | close i time =>
      refine withWorker_withOutput fun w => ?_
      obtain ⟨c, guard⟩ := w
      cases guard with
      | none => rfl
      | some g =>
          refine outcome_withOutput ?_
          rw [dropGuard_withOutput mute]
          cases s.dropGuard f i ⟨c, some g⟩ g time <;> rfl
  | crash i time =>
      refine withWorker_withOutput fun w => ?_
      obtain ⟨c, guard⟩ := w
      cases guard with
      | none => rfl
      | some g =>
          dsimp only
          rw [dropGuard_withOutput mute]
          cases s.dropGuard f i ⟨c, some g⟩ g time <;> rfl
  | report order human minSize limit =>
      rw [step_report, step_report]
      rfl
  | views order minSize =>
      rw [step_views, step_views]
      rfl
  | newContext | lookup | hold | release | liveCount | purge => rfl

theorem operate_withOutput (f : Flavour) (s : Session) (op : Operation) :
    (s.withOutput o).operate f op = ((s.operate f op).1, (s.operate f op).2.withOutput o) := by
  cases op with
  | step st =>
      simp only [operate, step_withOutput mute]
  | replay job =>
      have run := job.run_withOutput mute f s.site
      change job.run f (s.withOutput o).site = _ at run
      simp only [operate, run]
      rfl

/-- All answers of a run are the same, and so are the sessions, but for the output. -/
theorem trail_withOutput (f : Flavour) (s : Session) (ops : List Operation) :
    trail (operate f) (s.withOutput o) ops =
      (trail (operate f) s ops).map fun r => (r.1, r.2.withOutput o) := by
  induction ops generalizing s with
  | nil => rfl
  | cons op ops ih =>
      rw [trail, trail, operate_withOutput mute, ih]
      rfl

end Session

end ArenaPeak
