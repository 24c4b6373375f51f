import ArenaPeak.Proofs.Guards
import ArenaPeak.Proofs.Scheduling

/-!
Sessions that run replays between their steps. A replay works on the site of the session, that is on
its service and its symbols, with workers of its own that are gone when it ends; the threads of the
session stand still meanwhile. What every compilation keeps is kept by a replay, and what every step
and every replay keeps is kept by a run.
-/

namespace ArenaPeak

open Trace

/-- The answers of a run and the states after them. -/
def trail {σ ι β : Type} (step : σ → ι → β × σ) (s : σ) : List ι → List (β × σ)
  | [] => []
  | i :: rest => step s i :: trail step (step s i).2 rest

namespace Replay

variable (f : Flavour) (config : StatConfig)

/-- What a compilation leaves behind: the site, and the context of its worker. -/
inductive Compiled (site : Site) (ctx : Context) (c : TraceCompilation) (time : Seconds) :
    Site → Context → Prop
  | off (off : site.service.Off) :
      Compiled site ctx c time { site with symbols := (interned site ctx c).2 } ctx.clearTask
  | on (table : StatTable) (on : site.service.On table) :
      Compiled site ctx c time (left f config site ctx c time table)
        (ended config site ctx c).clearTask

variable {f config}

theorem Compiled.keeps {site site' : Site} {ctx ctx' : Context} {c : TraceCompilation}
    {time : Seconds} (h : Compiled f config site ctx c time site' ctx') : Keeps site site' := by
  cases h with
  | off off => exact keeps_left_untracked site ctx c
  | on table on => exact keeps_left f config on ctx c time

theorem Compiled.outside {site site' : Site} {ctx ctx' : Context} {c : TraceCompilation}
    {time : Seconds} (h : Compiled f config site ctx c time site' ctx') :
    site'.outside = site.outside := by
  cases h with
  | off off => rfl
  | on table on =>
      rw [left]
      split <;> rfl

variable (f config)

theorem compileOne_compiled {site : Site} (switched : site.service.Switched) {ctx : Context}
    (sound : ctx.counter.Sound) {c : TraceCompilation} (enough : ∀ n, Affordable n c.events)
    (time : Seconds) :
    ∃ site' ctx', compileOne f config site ctx c time =
        .ok (site.service.enabled && tracks config c, site', ctx') ∧
      Compiled f config site ctx c time site' ctx' ∧ ctx'.counter.Sound := by
  cases switched.cases with
  | inl off =>
      refine ⟨_, _, ?_, .off off, sound⟩
      rw [off.enabled]
      exact compileOne_off f off.enabled time
  | inr on =>
      obtain ⟨table, on⟩ := on
      refine ⟨_, _, ?_, .on table on, Context.sound_foldl_after _ (sound_begun sound)⟩
      rw [on.enabled]
      exact compileOne_on f on (sound_begun sound) (enough _) time

/-- What a turn of a worker leaves behind. -/
inductive Turned (p : Progress) (t : Turn) : Progress → Prop
  | compiled (ctx : Context) (site' : Site) (ctx' : Context)
      (worker : p.workers[t.worker]? = some ctx)
      (left : Compiled f config p.site ctx t.compilation t.time site' ctx') :
      Turned p t ⟨site', p.workers.set t.worker ctx',
        p.tracked + if p.site.service.enabled && tracks config t.compilation then 1 else 0⟩

theorem turn_turned {p : Progress} (switched : p.site.service.Switched) (sound : p.Sound) {t : Turn}
    (staffed : t.worker < p.workers.length) (enough : ∀ n, Affordable n t.compilation.events) :
    ∃ p', turn f config p t = .ok p' ∧ Turned f config p t p' ∧ p'.site.service.Switched ∧
      p'.Sound ∧ p'.workers.length = p.workers.length := by
  have worker : p.workers[t.worker]? = some p.workers[t.worker] := List.getElem?_eq_getElem staffed
  obtain ⟨site', ctx', run, left, sound'⟩ :=
    compileOne_compiled f config switched (sound _ (List.getElem_mem staffed)) enough t.time
  refine ⟨_, ?_, .compiled _ site' ctx' worker left, left.keeps.switched switched, ?_, by simp⟩
  · simp only [turn, worker, run]
    rfl
  · intro ctx mem
    cases List.mem_or_eq_of_mem_set mem with
    | inl old => exact sound ctx old
    | inr new => exact new ▸ sound'

/-- What every turn keeps is kept by turns that are taken one after the other. -/
theorem play_kept {motive : List TraceCompilation → Progress → Prop}
    (kept : ∀ cs p t p', motive cs p → Turned f config p t p' → motive (cs ++ [t.compilation]) p')
    {p : Progress} (switched : p.site.service.Switched) (sound : p.Sound) {turns : List Turn}
    (staffed : ∀ turn ∈ turns, turn.worker < p.workers.length)
    (enough : ∀ turn ∈ turns, ∀ n, Affordable n turn.compilation.events)
    (cs : List TraceCompilation) (start : motive cs p) :
    ∃ p', play f config p turns = .ok p' ∧ motive (cs ++ turns.map (·.compilation)) p' := by
  induction turns generalizing p cs with
  | nil => exact ⟨p, rfl, by rwa [List.map_nil, List.append_nil]⟩
  | cons head turns ih =>
      rw [List.forall_mem_cons] at staffed enough
      obtain ⟨p₁, first, turned, switched₁, sound₁, length⟩ :=
        turn_turned f config switched sound staffed.1 enough.1
      obtain ⟨p', rest, last⟩ := ih switched₁ sound₁ (by rw [length]; exact staffed.2) enough.2
        (cs ++ [head.compilation]) (kept cs p head p₁ start turned)
      refine ⟨p', ?_, ?_⟩
      · rw [play, first]
        exact rest
      · rwa [List.append_assoc] at last

/-- A replay that is asked for, with the turns that its workers take. -/
structure Job where
  config : StatConfig
  trace : Trace
  threads : UInt64
  turns : List Turn
  schedule : Schedule trace (workerCount threads.toNat trace.compilations.length) turns

namespace Job

/-- The replay of a trace by one worker, in the order of the trace. -/
def inOrder (config : StatConfig) (trace : Trace) (threads : UInt64) (clock : Nat → Seconds) :
    Job :=
  ⟨config, trace, threads, Replay.inOrder trace clock, schedule_inOrder trace threads clock⟩

def workers (job : Job) : Nat :=
  workerCount job.threads.toNat job.trace.compilations.length

/-- The outcome of a job and the site after it. -/
def run (f : Flavour) (job : Job) (site : Site) : Except Failure Outcome × Site :=
  settle site (replayIn f job.config site job.trace job.workers job.turns)

/-- A job is refused for its trace and leaves the site alone, or it comes to its end and keeps what
every turn keeps. -/
theorem run_cases (f : Flavour) (job : Job) (site : Site) (switched : site.service.Switched) :
    (∃ fault, job.trace.validate = .error fault ∧
      job.run f site = (.error (.invalid fault), site)) ∨
    (job.trace.validate = .ok () ∧ ∃ p,
      job.run f site = (.ok ⟨job.trace.compilations.length, p.tracked⟩, p.site) ∧
      ∀ motive : List TraceCompilation → Progress → Prop,
        (∀ cs p t p', motive cs p → Turned f job.config p t p' →
          motive (cs ++ [t.compilation]) p') →
        motive [] (.start site job.workers) → motive (job.turns.map (·.compilation)) p) := by
  cases valid : job.trace.validate with
  | error fault => exact .inl ⟨fault, rfl, by simp only [run, replayIn, valid, settle]⟩
  | ok _ =>
      have enough := job.schedule.affordable valid
      have staffed := job.schedule.staffed_start site
      have sound := sound_start site job.workers
      obtain ⟨p, played, -⟩ := play_ok f job.config sound staffed enough
      refine .inr ⟨rfl, p, by simp only [run, replayIn, valid, played, settle], ?_⟩
      intro motive kept start
      obtain ⟨p', played', last⟩ :=
        play_kept f job.config kept switched sound staffed enough [] start
      -- `p` must not depend on the motive, so it is taken first and found again here
      cases played.symm.trans played'
      exact last

/-- What every compilation keeps of a site, and the numbering of threads does, is kept by a job. -/
theorem run_kept {f : Flavour} {job : Job} {P : Site → Prop}
    (kept : ∀ site ctx c time site' ctx', P site →
      Compiled f job.config site ctx c time site' ctx' → P site')
    {site : Site} (switched : site.service.Switched)
    (start : ∀ nextThread, P { site with nextThread }) : P (job.run f site).2 := by
  cases job.run_cases f site switched with
  | inl refused =>
      obtain ⟨fault, -, run⟩ := refused
      rw [run]
      exact start site.nextThread
  | inr accepted =>
      obtain ⟨-, p, run, keeps⟩ := accepted
      rw [run]
      refine keeps (fun _ p => P p.site) ?_ (start _)
      intro cs p t p' before turned
      cases turned with
      | compiled ctx site' ctx' worker left => exact kept p.site ctx _ _ site' ctx' before left

theorem keeps_run (f : Flavour) (job : Job) (site : Site) (switched : site.service.Switched) :
    Keeps site (job.run f site).2 :=
  run_kept (P := Keeps site) (fun _ _ _ _ _ _ before compiled => before.trans compiled.keeps)
    switched fun _ => ⟨rfl, id, fun h => ⟨h.symbols, h.recorded⟩⟩

theorem outside_run (f : Flavour) (job : Job) (site : Site) (switched : site.service.Switched) :
    (job.run f site).2.outside = site.outside :=
  run_kept (P := fun site' => site'.outside = site.outside)
    (fun _ _ _ _ _ _ before compiled => compiled.outside.trans before) switched fun _ => rfl

end Job

end Replay

inductive Operation where
  | step (st : Session.Step)
  | replay (job : Replay.Job)

/-- What comes back from an operation. -/
inductive Reply where
  | answer (a : Except Session.Failure Session.Answer)
  | outcome (o : Except Replay.Failure Replay.Outcome)

namespace Session

variable {f : Flavour} {s : Session}

/-- The session after its site has been worked on. -/
def onSite (s : Session) (site : Site) : Session :=
  { s with service := site.service, symbols := site.symbols, nextThread := site.nextThread }

def operate (f : Flavour) (s : Session) : Operation → Reply × Session
  | .step st => (.answer (s.step f st).1, (s.step f st).2)
  | .replay job => (.outcome (job.run f s.site).1, s.onSite (job.run f s.site).2)

/-- A replay leaves its site to the session. -/
theorem site_replay (f : Flavour) (switched : s.service.Switched) (job : Replay.Job) :
    (s.operate f (.replay job)).2.site = (job.run f s.site).2 := by
  have outside : s.outside = (job.run f s.site).2.outside :=
    (job.outside_run f s.site switched).symm
  change Site.mk _ _ s.outside _ = _
  rw [outside]
  rfl

/-- The session after some operations. -/
def reached (f : Flavour) (s : Session) (ops : List Operation) : Session :=
  ops.foldl (fun s op => (s.operate f op).2) s

theorem reached_cons (f : Flavour) (s : Session) (op : Operation) (ops : List Operation) :
    s.reached f (op :: ops) = (s.operate f op).2.reached f ops :=
  rfl

theorem reached_append (f : Flavour) (s : Session) (ops ops' : List Operation) :
    s.reached f (ops ++ ops') = (s.reached f ops).reached f ops' :=
  List.foldl_append

/-- What every operation keeps is kept by a run. -/
theorem reached_kept {P : Session → Prop} (kept : ∀ s op, P s → P (s.operate f op).2)
    (start : P s) (ops : List Operation) : P (s.reached f ops) := by
  induction ops generalizing s with
  | nil => exact start
  | cons op ops ih => exact ih (kept s op start)

/-- The switch and the table go together, whatever is done. -/
theorem switched_operate (switched : s.service.Switched) (op : Operation) :
    (s.operate f op).2.service.Switched := by
  cases op with
  | step st => exact switched_step switched st
  | replay job => exact (job.keeps_run f s.site switched).switched switched

theorem switched_reached (f : Flavour) (inline : InlineOutput) (ops : List Operation) :
    ((new inline).reached f ops).service.Switched :=
  reached_kept (P := fun s => s.service.Switched)
    (fun _ op switched => switched_operate switched op) (Service.switched_new inline) ops

/-- Once on, the service stays on. -/
theorem enabled_operate (switched : s.service.Switched) (on : s.service.enabled = true)
    (op : Operation) : (s.operate f op).2.service.enabled = true := by
  cases op with
  | step st => exact enabled_step switched on st
  | replay job => exact (job.keeps_run f s.site switched).enabled.trans on

theorem armed_operate (armed : s.Armed) (op : Operation) : (s.operate f op).2.Armed := by
  cases op with
  | step st => exact armed_step armed st
  | replay job =>
      have keeps := job.keeps_run f s.site armed.switched
      refine ⟨keeps.switched armed.switched, ?_⟩
      intro i w g there opened active
      have tracked := armed.tracks i w g there opened active
      have on := (Guard.tracks_iff.mp tracked).1
      exact Worker.tracks_of_label tracked rfl (keeps.enabled.trans on)

theorem armed_reached (f : Flavour) (inline : InlineOutput) (ops : List Operation) :
    ((new inline).reached f ops).Armed :=
  reached_kept (P := Armed) (fun _ op armed => armed_operate armed op) (armed_new inline) ops

/-! ### Tables -/

/-- A property of the table, if there is one. -/
def TableHas (P : StatTable → Prop) (s : Service) : Prop :=
  ∀ t, s.table = some t → P t

variable {P : StatTable → Prop}

/-- Tables come into being empty and change by commits only. -/
theorem tableHas_operate (switched : s.service.Switched) (empty : P .empty)
    (upsert : ∀ t m c, P t → P (t.upsert m c)) (before : TableHas P s.service) (op : Operation) :
    TableHas P (s.operate f op).2.service := by
  cases op with
  | step st =>
      intro t there
      simp only [operate] at there
      cases tableStep f switched st with
      | same quiet enabled after => exact before t (after.symm.trans there)
      | created quiet off after =>
          cases after.table.symm.trans there
          exact empty
      | committed i m c commits after =>
          obtain ⟨table, on, on'⟩ := after.table
          cases on'.table.symm.trans there
          exact upsert table m c (before table on.table)
  | replay job =>
      refine Replay.Job.run_kept (P := fun site => TableHas P site.service) ?_ switched
        fun _ => before
      intro site ctx c time site' ctx' before compiled
      cases compiled with
      | off off => exact before
      | on table on =>
          intro t there
          by_cases tracked : Replay.tracks job.config c = true
          · rw [(Replay.left_on f job.config site ctx c time on tracked).table] at there
            cases there
            exact upsert table _ _ (before table on.table)
          · rw [Replay.left_untracked f job.config site ctx c time table tracked] at there
            exact before t there

theorem tableHas_reached (empty : P .empty) (upsert : ∀ t m c, P t → P (t.upsert m c))
    (inline : InlineOutput) (ops : List Operation) :
    TableHas P ((new inline).reached f ops).service := by
  refine (reached_kept (P := fun s => s.service.Switched ∧ TableHas P s.service) ?_ ?_ ops).2
  · intro s op before
    exact ⟨switched_operate before.1 op, tableHas_operate before.1 empty upsert before.2 op⟩
  · exact ⟨Service.switched_new inline, fun _ there => by cases there⟩

end Session

end ArenaPeak
