import ArenaPeak.Proofs.InPlace
import ArenaPeak.Proofs.Operations

/-!
Replays carried out in place. A trace is validated before any worker is started, and then the
compilations are run one after the other: a name is interned, a task is set, a guard is opened, the
events are accounted and the guard is dropped, each of which stays done whatever comes after it. No
compilation of a valid trace fails on the way, so a replay that fails has done nothing at all, and a
replay in place comes to what it comes to as a function.
-/

namespace ArenaPeak.Replay

open InPlace

section

variable {ε α : Type}

/-- A program on the context of the worker that runs a compilation. -/
def onContext (p : InPlace ε Context α) : InPlace ε (Site × Context) α :=
  on (·.2) (fun r ctx => (r.1, ctx)) p

/-- A program on the service and the symbols. -/
def onBooks (p : InPlace ε (Service × SymbolStore) α) : InPlace ε (Site × Context) α :=
  on (fun r => (r.1.service, r.1.symbols))
    (fun r books => ({ r.1 with service := books.1, symbols := books.2 }, r.2)) p

theorem onContext_of_ok {p : InPlace ε Context α} {ctx ctx' : Context} {a : α}
    (h : p ctx = (.ok a, ctx')) (site : Site) :
    onContext p (site, ctx) = (.ok a, site, ctx') := by
  rw [onContext, on, h]

theorem onBooks_of_ok {p : InPlace ε (Service × SymbolStore) α} (site : Site)
    {books : Service × SymbolStore} {a : α}
    (h : p (site.service, site.symbols) = (.ok a, books)) (ctx : Context) :
    onBooks p (site, ctx) =
      (.ok a, { site with service := books.1, symbols := books.2 }, ctx) := by
  rw [onBooks, on, h]

/-- A program on the site and on the context of a worker. -/
def onWorker (i : Nat) (ctx : Context) (p : InPlace ε (Site × Context) α) : InPlace ε Progress α :=
  on (fun p => (p.site, ctx))
    (fun p r => { p with site := r.1, workers := p.workers.set i r.2 }) p

theorem onWorker_of_ok {p : InPlace ε (Site × Context) α} {progress : Progress} {ctx : Context}
    {r : Site × Context} {a : α} (h : p (progress.site, ctx) = (.ok a, r)) (i : Nat) :
    onWorker i ctx p progress =
      (.ok a, { progress with site := r.1, workers := progress.workers.set i r.2 }) := by
  rw [onWorker, on, h]

end

def eventInPlace (f : Flavour) (s : Service) (e : TraceEvent) : InPlace Violation Context Unit := do
  match e.liveNodes with
  | some n => change (·.setLive n)
  | none => pure ()
  let _ ← Guard.arenaInPlace f s e.delta e.tag
  return ()

def eventsInPlace (f : Flavour) (s : Service) :
    List TraceEvent → InPlace Violation Context Unit
  | [] => pure ()
  | e :: es => do
      eventInPlace f s e
      eventsInPlace f s es

/-- One compilation on one worker. -/
def compileInPlace (f : Flavour) (config : StatConfig) (c : TraceCompilation) (time : Seconds) :
    InPlace Violation (Site × Context) Bool := do
  let (site, ctx) ← read
  let (method, symbols) := site.symbols.internMethod (ctx.held ++ site.held) 0 (nameOf c)
  change fun r => ({ r.1 with symbols }, r.2)
  let directive := directiveOf site.service config c method
  change fun r => (r.1, r.2.setTask ⟨method, c.compiler, directive, some 0⟩)
  let guard ← onContext (Guard.enterInPlace f site.service)
  onContext (eventsInPlace f site.service c.events)
  let (_, ctx) ← read
  onBooks (Guard.dropInPlace f guard ctx time)
  change fun r => (r.1, r.2.clearTask)
  return guard.active

def turnInPlace (f : Flavour) (config : StatConfig) (t : Turn) :
    InPlace Violation Progress Unit := do
  let p ← read
  match p.workers[t.worker]? with
  | none => return ()
  | some ctx =>
      let active ← onWorker t.worker ctx (compileInPlace f config t.compilation t.time)
      change fun p => { p with tracked := p.tracked + if active then 1 else 0 }

def playInPlace (f : Flavour) (config : StatConfig) : List Turn → InPlace Violation Progress Unit
  | [] => pure ()
  | t :: turns => do
      turnInPlace f config t
      playInPlace f config turns

/-- The workers of a replay take their turns on a site, which shows all that they have done. -/
def workInPlace (f : Flavour) (job : Job) : InPlace Failure Site Outcome := fun site =>
  match playInPlace f job.config job.turns (.start site job.workers) with
  | (.ok (), p) => (.ok ⟨job.trace.compilations.length, p.tracked⟩, p.site)
  | (.error v, p) => (.error (.violated v), p.site)

/-- A replay in place: the trace is validated, and the workers start after that. -/
def Job.runInPlace (f : Flavour) (job : Job) : InPlace Failure Site Outcome := do
  check (job.trace.validate.mapError .invalid)
  workInPlace f job

variable {f : Flavour} {config : StatConfig} {s : Service} {site site' : Site}
variable {ctx ctx' : Context} {c : TraceCompilation}

/-- An event that is accounted is accounted in place, and the counter stays sound. -/
theorem eventInPlace_of_ok (sound : ctx.counter.Sound) {e : TraceEvent}
    (played : playEvent f s ctx e = .ok ctx') :
    eventInPlace f s e ctx = (.ok (), ctx') ∧ ctx'.counter.Sound := by
  have sound : (ctx.hear e).counter.Sound := by rwa [Context.hear_counter]
  obtain ⟨⟨reached, ctx₁⟩, accounted, done⟩ :
      ∃ r, Guard.arena f s (ctx.hear e) e.delta e.tag = .ok r ∧ _ := exists_of_bind_eq_ok played
  cases done
  have inPlace := Guard.arenaInPlace_eq f s sound e.delta e.tag
  rw [accounted] at inPlace
  refine ⟨?_, Guard.sound_arena sound accounted⟩
  have heard : eventInPlace f s e ctx =
      (Guard.arenaInPlace f s e.delta e.tag >>= fun _ => pure ()) (ctx.hear e) := by
    rw [eventInPlace, Context.hear]
    cases e.liveNodes <;> rfl
  rw [heard]
  exact bind_ok inPlace _

theorem eventsInPlace_of_ok (sound : ctx.counter.Sound) {es : List TraceEvent}
    (played : playEvents f s ctx es = .ok ctx') : eventsInPlace f s es ctx = (.ok (), ctx') := by
  induction es generalizing ctx with
  | nil =>
      cases played
      rfl
  | cons e es ih =>
      obtain ⟨ctx₁, first, rest⟩ := exists_of_bind_eq_ok played
      obtain ⟨inPlace, sound₁⟩ := eventInPlace_of_ok sound first
      exact (bind_ok inPlace _).trans (ih sound₁ rest)

/-- What works as a function works in place. -/
theorem compileInPlace_of_ok (sound : ctx.counter.Sound) {time : Seconds} {active : Bool}
    (compiled : compileOne f config site ctx c time = .ok (active, site', ctx')) :
    compileInPlace f config c time (site, ctx) = (.ok active, site', ctx') := by
  rw [compileOne_bind] at compiled
  obtain ⟨⟨guard, ctx₁⟩, entered, compiled⟩ := exists_of_bind_eq_ok compiled
  obtain ⟨ctx₂, played, compiled⟩ := exists_of_bind_eq_ok compiled
  obtain ⟨⟨service, symbols⟩, dropped, compiled⟩ := exists_of_bind_eq_ok compiled
  cases compiled
  have enter := Guard.enterInPlace_eq f site.service (ctx.setTask ⟨(interned site ctx c).1,
    c.compiler, directiveOf site.service config c (interned site ctx c).1, some 0⟩)
  rw [entered] at enter
  have sound₁ : ctx₁.counter.Sound := by
    rw [Guard.enter_eq] at entered
    cases entered
    split
    · exact PeakCounter.sound_restart _
    · exact sound
  have drop := guard.dropInPlace_eq f site.service (interned site ctx c).2 ctx₂ time
  rw [dropped] at drop
  rw [compileInPlace, read_bind]
  dsimp only
  rw [change_bind, change_bind]
  refine (bind_ok (onContext_of_ok enter _) _).trans ?_
  refine (bind_ok (onContext_of_ok (eventsInPlace_of_ok sound₁ played) _) _).trans ?_
  rw [read_bind]
  exact bind_ok (onBooks_of_ok { site with symbols := (interned site ctx c).2 } drop _) _

variable {p p' : Progress}

theorem turnInPlace_of_ok (sound : p.Sound) {t : Turn} (taken : turn f config p t = .ok p') :
    turnInPlace f config t p = (.ok (), p') := by
  rw [turnInPlace, read_bind]
  rw [turn] at taken
  cases worker : p.workers[t.worker]? with
  | none =>
      rw [worker] at taken
      cases taken
      rfl
  | some ctx =>
      rw [worker] at taken
      obtain ⟨⟨active, site', ctx'⟩, compiled, done⟩ := exists_of_bind_eq_ok taken
      cases done
      have inPlace := compileInPlace_of_ok (sound ctx (List.mem_of_getElem? worker)) compiled
      exact bind_ok (onWorker_of_ok inPlace _) _

theorem playInPlace_of_ok (sound : p.Sound) {turns : List Turn}
    (staffed : ∀ turn ∈ turns, turn.worker < p.workers.length)
    (enough : ∀ turn ∈ turns, ∀ n, Trace.Affordable n turn.compilation.events)
    (played : play f config p turns = .ok p') : playInPlace f config turns p = (.ok (), p') := by
  induction turns generalizing p with
  | nil =>
      cases played
      rfl
  | cons t turns ih =>
      rw [List.forall_mem_cons] at staffed enough
      obtain ⟨p₁, first, sound₁, length, -⟩ := turn_ok f config sound staffed.1 enough.1
      rw [play, first] at played
      refine (bind_ok (turnInPlace_of_ok sound first) _).trans ?_
      exact ih sound₁ (by rw [length]; exact staffed.2) enough.2 played

/-- Nothing fails after the validation, and nothing is changed before it. -/
theorem Job.runInPlace_eq (f : Flavour) (job : Job) (site : Site) :
    job.runInPlace f site = job.run f site := by
  rw [runInPlace, run, replayIn]
  cases valid : job.trace.validate with
  | error fault => rfl
  | ok _ =>
      have sound := sound_start site job.workers
      have staffed := job.schedule.staffed_start site
      have enough := job.schedule.affordable valid
      obtain ⟨p, played, -⟩ := play_ok f job.config sound staffed enough
      refine (check_ok_bind () _ site).trans ?_
      simp only [workInPlace, playInPlace_of_ok sound staffed enough played, played, settle]

end ArenaPeak.Replay
