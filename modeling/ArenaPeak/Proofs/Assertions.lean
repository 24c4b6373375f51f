import ArenaPeak.Proofs.Checks
import ArenaPeak.Table.Catalogue

/-!
Debug assertions only check. A run in which none of them fails goes the same way in a release build,
step by step, for counters, for tables and for sessions with replays; the builds differ in what they
show of a counter. A release build never stops but at a second enabling and at a crash.
-/

namespace ArenaPeak

/-- What a report shows depends on the switch and on the table only. -/
theorem Service.reportWithin_congr {s s' : Service} (on : s.enabled = s'.enabled)
    (same : s.table = s'.table) (order : Arrangement) (human : Bool) (minSize : UInt64)
    (limit : Option Nat) :
    s.reportWithin order human minSize limit = s'.reportWithin order human minSize limit := by
  have lines : s.reportLines order minSize = s'.reportLines order minSize := by
    rw [reportLines, reportLines, on, same]
  rw [reportWithin, reportWithin, report, report, lines]

namespace Session

variable {s s' : Session}

/-- Two sessions that differ in what has been printed only. -/
structure Alike (s s' : Session) : Prop where
  service : s.service.Alike s'.service
  symbols : s.symbols = s'.symbols
  workers : s.workers = s'.workers
  handles : s.handles = s'.handles
  nextThread : s.nextThread = s'.nextThread

theorem alike_refl (s : Session) : s.Alike s :=
  ⟨s.service.alike_refl, rfl, rfl, rfl, rfl⟩

theorem Alike.outside (alike : s.Alike s') : s.outside = s'.outside := by
  rw [Session.outside, Session.outside, alike.workers, alike.handles]

theorem Alike.held (alike : s.Alike s') : s.held = s'.held := by
  rw [Session.held, Session.held, alike.outside, alike.service.held]

theorem Alike.site (alike : s.Alike s') : s.site.Alike s'.site :=
  ⟨alike.service, alike.symbols, alike.outside, alike.nextThread⟩

theorem Alike.putWorker (alike : s.Alike s') (i : Nat) (w : Worker) :
    (s.putWorker i w).Alike (s'.putWorker i w) where
  service := alike.service
  symbols := alike.symbols
  workers := congrArg (·.set i w) alike.workers
  handles := alike.handles
  nextThread := alike.nextThread

theorem Alike.intern (alike : s.Alike s') (table : Nat) (name : MethodName) :
    s.symbols.internMethod s.held table name = s'.symbols.internMethod s'.held table name := by
  rw [alike.symbols, alike.held]

/-- A step in a debug build against the step in a release build. -/
inductive Matches :
    Except Failure Answer × Session → Except Failure Answer × Session → Prop
  | asserted {v : Violation} (h : v.asserted = true) (s : Session)
      (r' : Except Failure Answer × Session) : Matches (.error (.violated v), s) r'
  | same (a : Except Failure Answer) {s s' : Session} (alike : s.Alike s') : Matches (a, s) (a, s')

theorem matches_outcome (alike : s.Alike s') {x y : Except Violation (Answer × Session)}
    (checks : Checks (fun r r' => r.1 = r'.1 ∧ r.2.Alike r'.2) x y) :
    Matches (s.outcome x) (s'.outcome y) := by
  cases checks with
  | asserted failed r => exact .asserted failed s _
  | fails v => exact .same _ alike
  | @goes r r' both =>
      obtain ⟨a, t⟩ := r
      obtain ⟨a', t'⟩ := r'
      obtain ⟨(rfl : a = a'), after⟩ := both
      exact .same _ after

theorem matches_withWorker (alike : s.Alike s') (i : Nat)
    {step step' : Worker → Except Failure Answer × Session}
    (each : ∀ w, Matches (step w) (step' w)) :
    Matches (s.withWorker i step) (s'.withWorker i step') := by
  rw [withWorker, withWorker, ← alike.workers]
  cases s.workers[i]? with
  | none => exact .same _ alike
  | some w => exact each w

theorem matches_withContext (alike : s.Alike s') (i : Nat)
    {step step' : Context → Except Failure Answer × Session}
    (each : ∀ c, Matches (step c) (step' c)) :
    Matches (s.withContext i step) (s'.withContext i step') := by
  refine matches_withWorker alike i fun w => ?_
  cases w.guard with
  | none => exact each w.context
  | some g => exact .same _ alike

theorem dropGuard_checks (alike : s.Alike s') (i : Nat) (w : Worker) (g : Guard) (time : Seconds) :
    Checks Alike (s.dropGuard .debug i w g time) (s'.dropGuard .release i w g time) := by
  rw [dropGuard, dropGuard, ← alike.symbols]
  refine (g.drop_checks alike.service s.symbols w.context time).bind fun r r' both => ?_
  have after : Alike { s with service := r.1, symbols := r.2 }
      { s' with service := r'.1, symbols := r'.2 } :=
    ⟨both.1, both.2, alike.workers, alike.handles, alike.nextThread⟩
  exact .goes (after.putWorker i _)

theorem step_matches (alike : s.Alike s') (st : Step) :
    Matches (s.step .debug st) (s'.step .release st) := by
  cases st with
  | enable =>
      refine matches_outcome alike (alike.service.enable.bind fun service service' after => ?_)
      exact .goes ⟨rfl, after, alike.symbols, alike.workers, alike.handles, alike.nextThread⟩
  | newContext =>
      simp only [step, alike.workers, alike.nextThread]
      exact .same _ ⟨alike.service, alike.symbols, rfl, alike.handles, rfl⟩
  | setTask i table name kind directive live =>
      simp only [step, ← alike.intern]
      refine matches_withContext alike i fun c => ?_
      have after : Alike { s with symbols := (s.symbols.internMethod s.held table name).2 }
          { s' with symbols := (s.symbols.internMethod s.held table name).2 } :=
        ⟨alike.service, rfl, alike.workers, alike.handles, alike.nextThread⟩
      exact .same _ (after.putWorker i _)
  | clearTask i =>
      simp only [step]
      exact matches_withContext alike i fun c => .same _ (alike.putWorker i _)
  | task i => exact matches_withWorker alike i fun w => .same _ alike
  | setLive i n => exact matches_withWorker alike i fun w => .same _ (alike.putWorker i _)
  | start i =>
      simp only [step]
      refine matches_withContext alike i fun c => matches_outcome alike ?_
      exact (alike.service.start c).bind_eq fun c' => .goes ⟨rfl, alike.putWorker i _⟩
  | arena i delta tag =>
      refine matches_withWorker alike i fun w => matches_outcome alike ?_
      dsimp only
      cases w.guard with
      | none =>
          exact (alike.service.arena w.context delta tag).bind_eq fun r =>
            .goes ⟨rfl, alike.putWorker i _⟩
      | some g =>
          exact (Guard.arena_checks alike.service w.context delta tag).bind_eq fun r =>
            .goes ⟨rfl, alike.putWorker i _⟩
  | finish i time =>
      simp only [step]
      refine matches_withContext alike i fun c => matches_outcome alike ?_
      rw [← alike.symbols]
      refine (alike.service.finish s.symbols c time).bind fun r r' both => ?_
      exact .goes ⟨rfl, both.1, both.2, alike.workers, alike.handles, alike.nextThread⟩
  | enter i =>
      simp only [step]
      refine matches_withContext alike i fun c => matches_outcome alike ?_
      exact (Guard.enter_checks alike.service c).bind_eq fun r => .goes ⟨rfl, alike.putWorker i _⟩
  | close i time =>
      refine matches_withWorker alike i fun w => ?_
      cases w.guard with
      | none => exact .same _ alike
      | some g =>
          refine matches_outcome alike ?_
          exact (dropGuard_checks alike i w g time).bind fun _ _ after => .goes ⟨rfl, after⟩
  | crash i time =>
      refine matches_withWorker alike i fun w => ?_
      cases w.guard with
      | none => exact .same _ alike
      | some g =>
          -- a failed assertion in the dropping of the guard comes before the crash is told
          dsimp only
          have dropped := dropGuard_checks alike i w g time
          generalize s.dropGuard .debug i w g time = x at dropped ⊢
          generalize s'.dropGuard .release i w g time = y at dropped ⊢
          cases dropped with
          | asserted failed r => exact .asserted failed s _
          | fails v => exact .same _ alike
          | goes after => exact .same _ after
  | report order human minSize limit =>
      rw [step_report, step_report,
        Service.reportWithin_congr alike.service.enabled alike.service.table]
      exact .same _ alike
  | views order minSize =>
      have same : s.service.views order minSize = s'.service.views order minSize := by
        rw [Service.views, Service.views, alike.service.table]
      rw [step_views, step_views, same]
      exact .same _ alike
  | lookup table name =>
      have same (m : Method) : s.service.get? m = s'.service.get? m := by
        rw [Service.get?, Service.get?, alike.service.table]
      simp only [step, ← alike.intern, same]
      exact .same _ ⟨alike.service, rfl, alike.workers, alike.handles, alike.nextThread⟩
  | hold table name =>
      simp only [step, ← alike.intern, alike.handles]
      exact .same _ ⟨alike.service, rfl, alike.workers, rfl, alike.nextThread⟩
  | release k =>
      simp only [step, alike.handles]
      exact .same _ ⟨alike.service, alike.symbols, alike.workers, rfl, alike.nextThread⟩
  | liveCount table =>
      simp only [step, alike.symbols, alike.held]
      exact .same _ alike
  | purge table =>
      simp only [step, alike.symbols, alike.held]
      exact .same _ ⟨alike.service, rfl, alike.workers, alike.handles, alike.nextThread⟩

theorem ne_violated_outcome {x : Except Violation (Answer × Session)} (passes : Passes x)
    (v : Violation) : (s.outcome x).1 ≠ .error (.violated v) := by
  obtain ⟨⟨a, t⟩, rfl⟩ := passes
  intro same
  cases same

theorem ne_violated_withWorker {i : Nat} {step : Worker → Except Failure Answer × Session}
    {v : Violation} (each : ∀ w, (step w).1 ≠ .error (.violated v)) :
    (s.withWorker i step).1 ≠ .error (.violated v) := by
  rw [withWorker]
  cases s.workers[i]? with
  | none =>
      intro same
      cases same
  | some w => exact each w

theorem ne_violated_withContext {i : Nat} {step : Context → Except Failure Answer × Session}
    {v : Violation} (each : ∀ c, (step c).1 ≠ .error (.violated v)) :
    (s.withContext i step).1 ≠ .error (.violated v) := by
  refine ne_violated_withWorker fun w => ?_
  cases w.guard with
  | none => exact each w.context
  | some g =>
      intro same
      cases same

theorem dropGuard_passes (s : Session) (i : Nat) (w : Worker) (g : Guard) (time : Seconds) :
    Passes (s.dropGuard .release i w g time) :=
  (g.drop_passes s.service w.context s.symbols time).bind fun _ => .ok _

/-- The ways to stop a release build. -/
inductive Stops (s : Session) : Operation → Violation → Prop
  | enable (on : s.service.Switched → s.service.enabled = true) :
      Stops s (.step .enable) .enabledTwice
  | crash (i : Nat) (time : Seconds) : Stops s (.step (.crash i time)) .crashed

theorem stops_step {st : Step} {v : Violation}
    (stopped : (s.step .release st).1 = .error (.violated v)) : s.Stops (.step st) v := by
  cases st with
  | enable =>
      have on : s.service.Switched → s.service.enabled = true := by
        intro switched
        cases switched.cases with
        | inl off =>
            rw [step_enable_off off] at stopped
            cases stopped
        | inr on =>
            obtain ⟨table, on⟩ := on
            exact on.enabled
      simp only [step, Service.enable_eq] at stopped
      split at stopped
      · cases stopped
        exact .enable on
      · cases stopped
  | crash i time =>
      simp only [step, withWorker] at stopped
      cases there : s.workers[i]? with
      | none =>
          rw [there] at stopped
          cases stopped
      | some w =>
          obtain ⟨c, guard⟩ := w
          simp only [there] at stopped
          cases guard with
          | none =>
              cases stopped
              exact .crash i time
          | some g =>
              obtain ⟨s', dropped⟩ := dropGuard_passes s i ⟨c, some g⟩ g time
              simp only [dropped] at stopped
              cases stopped
              exact .crash i time
  | start i =>
      refine absurd stopped (ne_violated_withContext fun c => ne_violated_outcome ?_ v)
      exact (s.service.start_passes c).bind fun _ => .ok _
  | arena i delta tag =>
      refine absurd stopped (ne_violated_withWorker fun w => ne_violated_outcome ?_ v)
      dsimp only
      cases w.guard with
      | none => exact (s.service.arena_passes w.context delta tag).bind fun _ => .ok _
      | some g => exact (Guard.arena_passes s.service w.context delta tag).bind fun _ => .ok _
  | finish i time =>
      refine absurd stopped (ne_violated_withContext fun c => ne_violated_outcome ?_ v)
      exact (s.service.finish_passes c s.symbols time).bind fun _ => .ok _
  | enter i =>
      refine absurd stopped (ne_violated_withContext fun c => ne_violated_outcome ?_ v)
      exact (Guard.enter_passes s.service c).bind fun _ => .ok _
  | close i time =>
      refine absurd stopped (ne_violated_withWorker fun w => ?_)
      cases w.guard with
      | none =>
          intro same
          cases same
      | some g =>
          exact ne_violated_outcome ((dropGuard_passes s i w g time).bind fun _ => .ok _) v
  | setTask i table name kind directive live | clearTask i =>
      refine absurd stopped (ne_violated_withContext fun c same => ?_)
      cases same
  | task i | setLive i n =>
      refine absurd stopped (ne_violated_withWorker fun w same => ?_)
      cases same
  | report order human minSize limit =>
      rw [step_report] at stopped
      cases within : s.service.reportWithin order human minSize limit <;> simp [within] at stopped
  | views order minSize =>
      rw [step_views] at stopped
      cases stopped
  | newContext | lookup table name | hold table name | release k | liveCount table
  | purge table => cases stopped

/-- The violation that an operation is stopped by. -/
def violation? : Reply → Option Violation
  | .answer (.error (.violated v)) => some v
  | .outcome (.error (.violated v)) => some v
  | _ => none

/-- A debug build and a release build take an operation alike, unless an assertion fails. -/
theorem operate_alike (alike : s.Alike s') (op : Operation)
    (passes : ∀ v, violation? (s.operate .debug op).1 = some v → v.asserted = false) :
    (s.operate .debug op).1 = (s'.operate .release op).1 ∧
      (s.operate .debug op).2.Alike (s'.operate .release op).2 := by
  cases op with
  | step st =>
      have both := step_matches alike st
      simp only [operate] at passes ⊢
      generalize s.step .debug st = r at both passes ⊢
      generalize s'.step .release st = r' at both ⊢
      cases both with
      | asserted failed t r' => exact absurd failed (Violation.not_asserted passes)
      | same a after => exact ⟨rfl, after⟩
  | replay job =>
      have start := Replay.alike_start alike.site job.workers
      have both := Replay.play_checks job.config start job.turns
      simp only [operate, Replay.Job.run, Replay.replayIn] at passes ⊢
      cases valid : job.trace.validate with
      | error fault => exact ⟨rfl, alike⟩
      | ok _ =>
          simp only [valid] at passes ⊢
          generalize Replay.play .debug job.config _ job.turns = x at both passes ⊢
          generalize Replay.play .release job.config _ job.turns = y at both ⊢
          cases both with
          | asserted failed r => exact absurd failed (Violation.not_asserted passes)
          | fails v => exact ⟨rfl, alike⟩
          | goes after =>
              refine ⟨?_, after.site.service, after.site.symbols, alike.workers, alike.handles,
                after.site.nextThread⟩
              simp only [Replay.settle, after.tracked]

theorem stops_operate {op : Operation} {v : Violation}
    (stopped : violation? (s.operate .release op).1 = some v) : s.Stops op v := by
  cases op with
  | step st =>
      simp only [operate] at stopped
      refine stops_step ?_
      generalize (s.step .release st).1 = a at stopped ⊢
      cases a with
      | ok a => cases stopped
      | error e =>
          cases e with
          | violated v' =>
              cases stopped
              rfl
          | _ => cases stopped
  | replay job =>
      simp only [operate, Replay.Job.run, Replay.replayIn] at stopped
      cases valid : job.trace.validate with
      | error fault =>
          simp only [valid] at stopped
          cases stopped
      | ok _ =>
          obtain ⟨p, played⟩ :=
            Replay.play_passes job.config (.start s.site job.workers) job.turns
          simp only [valid, played] at stopped
          cases stopped

end Session

/-! ### Scripts -/

section

variable {σ ι β : Type} {step : Flavour → σ → ι → β × σ} {violation? : β → Option Violation}
variable {Alike : σ → σ → Prop} {Stops : σ → ι → Violation → Prop}

/-- The assertions of a machine only check: where none fails in a debug build, a release build gives
the same answers and reaches states that are alike, step by step; and a release build has no
violations but those of its own. -/
structure OnlyChecks (step : Flavour → σ → ι → β × σ) (violation? : β → Option Violation)
    (Alike : σ → σ → Prop) (Stops : σ → ι → Violation → Prop) : Prop where
  alike : ∀ s steps,
    (∀ x ∈ trail (step .debug) s steps, ∀ v, violation? x.1 = some v → v.asserted = false) →
      List.Forall₂ (fun x y => x.1 = y.1 ∧ Alike x.2 y.2) (trail (step .debug) s steps)
        (trail (step .release) s steps)
  stops : ∀ s i v, violation? (step .release s i).1 = some v → Stops s i v

/-- What the builds have in common at each step they have in common along a run. -/
theorem trail_alike
    (one : ∀ s s' i, Alike s s' →
      (∀ v, violation? (step .debug s i).1 = some v → v.asserted = false) →
        (step .debug s i).1 = (step .release s' i).1 ∧
          Alike (step .debug s i).2 (step .release s' i).2)
    {s s' : σ} (alike : Alike s s') (steps : List ι)
    (pass : ∀ x ∈ trail (step .debug) s steps, ∀ v, violation? x.1 = some v →
      v.asserted = false) :
    List.Forall₂ (fun x y => x.1 = y.1 ∧ Alike x.2 y.2) (trail (step .debug) s steps)
      (trail (step .release) s' steps) := by
  induction steps generalizing s s' with
  | nil => exact .nil
  | cons i rest ih =>
      rw [trail, List.forall_mem_cons] at pass
      have first := one s s' i alike pass.1
      exact .cons first (ih first.2 pass.2)

theorem onlyChecks_of_step (refl : ∀ s, Alike s s)
    (one : ∀ s s' i, Alike s s' →
      (∀ v, violation? (step .debug s i).1 = some v → v.asserted = false) →
        (step .debug s i).1 = (step .release s' i).1 ∧
          Alike (step .debug s i).2 (step .release s' i).2)
    (stops : ∀ s i v, violation? (step .release s i).1 = some v → Stops s i v) :
    OnlyChecks step violation? Alike Stops :=
  ⟨fun s steps pass => trail_alike one (refl s) steps pass, stops⟩

end

/-- The violation that a call is stopped by. -/
def violation? {α : Type} : Except Violation α → Option Violation
  | .error v => some v
  | .ok _ => none

/-- A call on a counter, with the counter after it. -/
def PeakCounter.respond (f : Flavour) (c : PeakCounter) (call : Call) :
    Except Violation (Option Bool) × PeakCounter :=
  ((c.perform f call).map (·.1), c.after f call)

theorem PeakCounter.perform_checks (c : PeakCounter) (call : Call) :
    Checks Eq (c.perform .debug call) (c.perform .release call) := by
  cases call with
  | restart => exact .goes rfl
  | account delta tag live => exact (c.account_checks delta tag live).bind_eq fun _ => .goes rfl

theorem PeakCounter.perform_passes (c : PeakCounter) (call : Call) :
    Passes (c.perform .release call) := by
  cases call with
  | restart => exact .ok _
  | account delta tag live => exact (c.account_passes delta tag live).bind fun _ => .ok _

theorem Catalogue.perform_eq (f : Flavour) (c : Catalogue) (st : Step) :
    c.perform f st = (.ok (c.step st).1, (c.step st).2) := by
  cases st with
  | snapshot minSize => simp only [perform, StatTable.audit_eq]
  | _ => rfl

theorem onlyChecks_counter :
    OnlyChecks PeakCounter.respond violation? Eq fun _ _ _ => False := by
  refine onlyChecks_of_step Eq.refl ?_ ?_
  · rintro c _ call rfl passes
    simp only [PeakCounter.respond, PeakCounter.after] at passes ⊢
    have both := c.perform_checks call
    generalize c.perform .debug call = x at both passes ⊢
    generalize c.perform .release call = y at both ⊢
    cases both with
    | asserted failed r => exact absurd failed (Violation.not_asserted passes)
    | fails v => exact ⟨rfl, rfl⟩
    | goes same =>
        subst same
        exact ⟨rfl, rfl⟩
  · intro c call v stopped
    obtain ⟨r, performed⟩ := c.perform_passes call
    simp only [PeakCounter.respond, performed] at stopped
    cases stopped

theorem onlyChecks_table :
    OnlyChecks Catalogue.perform violation? Eq fun _ _ _ => False := by
  refine onlyChecks_of_step Eq.refl ?_ ?_
  · rintro c _ st rfl -
    rw [Catalogue.perform_eq, Catalogue.perform_eq]
    exact ⟨rfl, rfl⟩
  · intro c st v stopped
    rw [Catalogue.perform_eq] at stopped
    cases stopped

theorem onlyChecks_session :
    OnlyChecks Session.operate Session.violation? Session.Alike Session.Stops :=
  onlyChecks_of_step Session.alike_refl (fun _ _ op alike => Session.operate_alike alike op)
    fun _ _ _ => Session.stops_operate

/-- In counters, in tables and in sessions with replays the assertions only check, and what the
builds show of a counter differs by where it started, peaked and stands. -/
theorem assertions_only_check :
    (OnlyChecks PeakCounter.respond violation? Eq fun _ _ _ => False) ∧
    (OnlyChecks Catalogue.perform violation? Eq fun _ _ _ => False) ∧
    OnlyChecks Session.operate Session.violation? Session.Alike Session.Stops ∧
    ∀ c : PeakCounter, c.display .debug = c.display .release ++ c.course :=
  ⟨onlyChecks_counter, onlyChecks_table, onlyChecks_session, PeakCounter.display_debug⟩

/-- Freeing what was never allocated stops a debug build and is cut off at zero in a release
build. -/
example :
    PeakCounter.zero.respond .debug (.account (-8) .node none) =
        (.error (.freedTooMuch (-8) 0 0 0), .zero) ∧
      PeakCounter.zero.respond .release (.account (-8) .node none) = (.ok (some false), .zero) := by
  decide

end ArenaPeak
