import ArenaPeak.Proofs.ReplayInPlace

/-!
Steps that fail. In a debug build a step violates a contract in a few ways only, each of which can
be told from the session before the step. Whatever fails, except for a crash, fails before anything
has changed, so a step carried out in place and a step taken as a function are the same, and a
script goes on after a failed step as it would have gone on without it.
-/

namespace ArenaPeak

open InPlace

namespace PeakCounter

variable {c : PeakCounter} {delta : Int64} {tag : ArenaTag} {live : Option UInt32}

/-- In a debug build accounting fails for want of bytes, and for nothing else. -/
theorem account_debug (sound : c.Sound) (v : Violation) :
    c.account .debug delta tag live = .error v ↔
      c.current.toNat + delta.toInt < 0 ∧ v = .freedTooMuch delta c.current c.start c.peak := by
  by_cases enough : 0 ≤ c.current.toNat + delta.toInt
  · rw [account_eq _ _ _ _ _ sound.current_le enough]
    constructor
    · intro failed
      cases failed
    · intro failed
      exact absurd enough (Int.not_le.mpr failed.1)
  · rw [account, decide_eq_false enough, Flavour.assert_debug_false]
    refine ⟨fun failed => ?_, fun failed => failed.2 ▸ rfl⟩
    cases failed
    exact ⟨Int.not_le.mp enough, rfl⟩

end PeakCounter

namespace Context

variable {c : Context} {delta : Int64} {tag : ArenaTag}

theorem account_debug (sound : c.counter.Sound) (v : Violation) :
    c.account .debug delta tag = .error v ↔ c.counter.current.toNat + delta.toInt < 0 ∧
      v = .freedTooMuch delta c.counter.current c.counter.start c.counter.peak := by
  rw [← PeakCounter.account_debug sound, account]
  cases c.counter.account .debug delta tag (c.task.bind (·.nodeSource)) with
  | error v' => simp [bind, Except.bind]
  | ok r =>
      constructor
      · intro failed
        cases failed
      · intro failed
        cases failed

end Context

/-! ### Counters of a session -/

namespace Service

variable {f : Flavour} {s : Service} {c c' : Context}

theorem sound_start (sound : c.counter.Sound) (h : s.start f c = .ok c') : c'.counter.Sound := by
  obtain ⟨_, -, h⟩ := exists_of_bind_eq_ok h
  cases h
  split
  · exact PeakCounter.sound_restart _
  · exact sound

end Service

/-- A thread keeps a sound counter whatever step it takes. -/
theorem Worker.sound_respond {f : Flavour} {s : Service} {intern : Nat → MethodName → Method}
    {w : Worker} (sound : w.context.counter.Sound) (st : Session.Step) :
    (w.respond f s intern st).2.context.counter.Sound := by
  obtain ⟨c, guard⟩ := w
  cases st with
  | start i =>
      cases guard with
      | some g => exact sound
      | none =>
          simp only [respond, whenFree]
          cases run : s.start f c with
          | error v => exact sound
          | ok c' => exact Service.sound_start sound run
  | arena i delta tag =>
      cases guard with
      | none =>
          simp only [respond]
          cases run : s.arena f c delta tag with
          | error v => exact sound
          | ok r => exact Service.sound_arena sound run
      | some g =>
          simp only [respond]
          cases run : Guard.arena f s c delta tag with
          | error v => exact sound
          | ok r => exact Guard.sound_arena sound run
  | enter i =>
      cases guard with
      | some g => exact sound
      | none =>
          rw [respond_enter]
          dsimp only
          split
          · exact PeakCounter.sound_restart _
          · exact sound
  | finish i time =>
      simp only [respond, whenFree]
      split
      · split <;> exact sound
      · exact sound
  | close i time | crash i time =>
      cases guard with
      | none => exact sound
      | some g =>
          simp only [respond, drop]
          split <;> exact sound
  | setTask | clearTask => cases guard <;> exact sound
  | _ => exact sound

namespace Session

variable {f : Flavour} {s : Session}

/-- The counter of every thread is sound. -/
def Accounted (s : Session) : Prop :=
  ∀ (i : Nat) (w : Worker), s.workers[i]? = some w → w.context.counter.Sound

theorem accounted_step (switched : s.service.Switched) (accounted : s.Accounted) (st : Step) :
    (s.step f st).2.Accounted := by
  intro i w' there'
  cases origin_step switched there' with
  | stayed other there => exact accounted i w' there
  | stepped w own there after =>
      subst after
      exact Worker.sound_respond (accounted i w there) st
  | joined id new =>
      subst new
      exact PeakCounter.sound_zero

theorem accounted_operate (switched : s.service.Switched) (accounted : s.Accounted)
    (op : Operation) : (s.operate f op).2.Accounted := by
  cases op with
  | step st => exact accounted_step switched accounted st
  | replay job => exact accounted

theorem accounted_reached (f : Flavour) (inline : InlineOutput) (ops : List Operation) :
    ((new inline).reached f ops).Accounted := by
  refine (reached_kept (P := fun s => s.service.Switched ∧ s.Accounted) ?_ ?_ ops).2
  · intro s op kept
    exact ⟨switched_operate kept.1 op, accounted_operate kept.1 kept.2 op⟩
  · exact ⟨Service.switched_new inline, fun i w there => by cases there⟩

end Session

/-! ### Contracts -/

namespace Service

variable {s : Service} {c : Context} {v : Violation}

theorem start_debug : s.start .debug c = .error v ↔ s.enabled = false ∧ v = .notEnabled := by
  cases on : s.enabled with
  | true =>
      rw [start_on _ on]
      constructor
      · intro failed
        cases failed
      · rintro ⟨⟨⟩, -⟩
  | false => simp [start, on, Flavour.assert_debug_false, bind, Except.bind, eq_comm]

theorem arena_debug (sound : c.counter.Sound) (delta : Int64) (tag : ArenaTag) :
    s.arena .debug c delta tag = .error v ↔ (s.enabled = false ∧ v = .notEnabled) ∨
      (s.enabled = true ∧ c.counter.current.toNat + delta.toInt < 0 ∧
        v = .freedTooMuch delta c.counter.current c.counter.start c.counter.peak) := by
  cases on : s.enabled with
  | true =>
      rw [arena_on _ on, Context.account_debug sound]
      simp
  | false => simp [arena, on, Flavour.assert_debug_false, bind, Except.bind, eq_comm]

theorem refusal?_debug : s.refusal? .debug c = some v ↔ (s.enabled = false ∧ v = .notEnabled) ∨
    (s.enabled = true ∧ c.task = none ∧ v = .endWithoutTask) ∨
    (s.enabled = true ∧ ∃ t, c.task = some t ∧
      (t.directive.collect = false ∧ t.directive.print = false) ∧ v = .endWithoutTracking) := by
  cases on : s.enabled <;> cases task : c.task <;>
    simp [refusal?, on, task, Flavour.checks, eq_comm (a := v)]
  next t => simp [Directive.collects]

end Service

theorem Guard.arena_debug {s : Service} {c : Context} (sound : c.counter.Sound) (delta : Int64)
    (tag : ArenaTag) {v : Violation} :
    Guard.arena .debug s c delta tag = .error v ↔
      s.enabled = true ∧ c.counter.current.toNat + delta.toInt < 0 ∧
        v = .freedTooMuch delta c.counter.current c.counter.start c.counter.peak := by
  cases on : s.enabled with
  | true =>
      rw [arena_on _ on, Context.account_debug sound]
      simp
  | false =>
      rw [arena_off _ on]
      constructor
      · intro failed
        cases failed
      · rintro ⟨⟨⟩, -⟩

theorem Worker.outcome_violated {α : Type} {w : Worker} {x : Except Violation α}
    (answer : α → Session.Answer) (w' : α → Worker) {v : Violation} :
    (w.outcome (x >>= fun a => .ok (answer a, w' a))).1 = .error (.violated v) ↔ x = .error v := by
  cases x with
  | error v' => simp [outcome, bind, Except.bind]
  | ok a =>
      constructor
      · intro failed
        cases failed
      · intro failed
        cases failed

namespace Session

variable {s : Session}

/-- A step violates a contract in one of these ways. -/
inductive Violates (s : Session) : Step → Violation → Prop
  | enabledTwice (on : s.service.enabled = true) : Violates s .enable .enabledTwice
  | startOff (i : Nat) (c : Context) (free : s.workers[i]? = some ⟨c, none⟩)
      (off : s.service.enabled = false) : Violates s (.start i) .notEnabled
  | arenaOff (i : Nat) (c : Context) (free : s.workers[i]? = some ⟨c, none⟩)
      (off : s.service.enabled = false) (delta : Int64) (tag : ArenaTag) :
      Violates s (.arena i delta tag) .notEnabled
  | finishOff (i : Nat) (c : Context) (free : s.workers[i]? = some ⟨c, none⟩)
      (off : s.service.enabled = false) (time : Seconds) : Violates s (.finish i time) .notEnabled
  | finishWithoutTask (i : Nat) (c : Context) (free : s.workers[i]? = some ⟨c, none⟩)
      (on : s.service.enabled = true) (idle : c.task = none) (time : Seconds) :
      Violates s (.finish i time) .endWithoutTask
  | finishUntracked (i : Nat) (c : Context) (free : s.workers[i]? = some ⟨c, none⟩)
      (on : s.service.enabled = true) (t : CompileTask) (task : c.task = some t)
      (quiet : t.directive.collect = false ∧ t.directive.print = false) (time : Seconds) :
      Violates s (.finish i time) .endWithoutTracking
  /-- Called directly or through the open guard. -/
  | freedTooMuch (i : Nat) (w : Worker) (there : s.workers[i]? = some w)
      (on : s.service.enabled = true) (delta : Int64) (tag : ArenaTag)
      (below : w.context.counter.current.toNat + delta.toInt < 0) :
      Violates s (.arena i delta tag) (.freedTooMuch delta w.context.counter.current
        w.context.counter.start w.context.counter.peak)

theorem Violates.ne_crashed {st : Step} {v : Violation} (violates : s.Violates st v) :
    v ≠ .crashed := by
  rintro rfl
  cases violates

/-- A failed step of a thread, by what the thread violates. -/
theorem violates_of_respond (armed : s.Armed) (accounted : s.Accounted) {i : Nat} {w : Worker}
    (there : s.workers[i]? = some w) {st : Step} (own : st.thread = some i) {v : Violation}
    (failed : (w.respond .debug s.service s.interned st).1 = .error (.violated v))
    (crashed : v ≠ .crashed) : s.Violates st v := by
  have sound := accounted i w there
  have undropped {g : Guard} (opened : w.guard = some g) (answer : Except Failure Answer) :=
    Worker.drop_eq (f := .debug) (armed.tracks i w g there opened) answer
  obtain ⟨c, guard⟩ := w
  cases st with
  | start j =>
      cases own
      cases guard with
      | some g => cases failed
      | none =>
          obtain ⟨off, rfl⟩ := Service.start_debug.mp
            ((Worker.outcome_violated (fun _ => .done) fun c => ⟨c, none⟩).mp failed)
          exact .startOff i c there off
  | arena j delta tag =>
      cases own
      cases guard with
      | some g =>
          obtain ⟨on, below, rfl⟩ := (Guard.arena_debug sound delta tag).mp
            ((Worker.outcome_violated (fun a : Bool × Context => .flag a.1) fun a =>
              ⟨a.2, some g⟩).mp failed)
          exact .freedTooMuch i ⟨c, some g⟩ there on delta tag below
      | none =>
          cases (Service.arena_debug sound delta tag).mp
            ((Worker.outcome_violated (fun a : Bool × Context => .flag a.1) fun a =>
              ⟨a.2, none⟩).mp failed) with
          | inl off =>
              obtain ⟨off, rfl⟩ := off
              exact .arenaOff i c there off delta tag
          | inr on =>
              obtain ⟨on, below, rfl⟩ := on
              exact .freedTooMuch i ⟨c, none⟩ there on delta tag below
  | finish j time =>
      cases own
      cases guard with
      | some g => cases failed
      | none =>
          simp only [Worker.respond, Worker.whenFree] at failed
          cases refused : s.service.refusal? .debug c with
          | none =>
              rw [refused] at failed
              cases failed
          | some v' =>
              rw [refused] at failed
              cases failed
              obtain off | idle | quiet := Service.refusal?_debug.mp refused
              · obtain ⟨off, rfl⟩ := off
                exact .finishOff i c there off time
              · obtain ⟨on, idle, rfl⟩ := idle
                exact .finishWithoutTask i c there on idle time
              · obtain ⟨on, t, task, quiet, rfl⟩ := quiet
                exact .finishUntracked i c there on t task quiet time
  | enter j =>
      cases guard with
      | some g => cases failed
      | none =>
          rw [Worker.respond_enter] at failed
          cases failed
  | close j time =>
      cases guard with
      | none => cases failed
      | some g =>
          simp only [Worker.respond, undropped rfl] at failed
          cases failed
  | crash j time =>
      cases guard with
      | none =>
          cases failed
          exact absurd rfl crashed
      | some g =>
          simp only [Worker.respond, undropped rfl] at failed
          cases failed
          exact absurd rfl crashed
  | setTask | clearTask => cases guard <;> cases failed
  | _ => cases failed

/-- The contracts that a step can violate, from the session alone. -/
theorem violates_iff (armed : s.Armed) (accounted : s.Accounted) {st : Step} {v : Violation} :
    s.Violates st v ↔ (s.step .debug st).1 = .error (.violated v) ∧ v ≠ .crashed := by
  constructor
  · intro violates
    refine ⟨?_, violates.ne_crashed⟩
    cases violates with
    | enabledTwice on => rw [step_enable_on on]
    | startOff i c free off =>
        refine (yields_step armed.switched free rfl).1.trans ?_
        exact (Worker.outcome_violated _ _).mpr (Service.start_debug.mpr ⟨off, rfl⟩)
    | arenaOff i c free off delta tag =>
        refine (yields_step armed.switched free rfl).1.trans ?_
        have refused := (Service.arena_debug (accounted i _ free) delta tag).mpr (.inl ⟨off, rfl⟩)
        exact (Worker.outcome_violated _ _).mpr refused
    | finishOff i c free off time =>
        refine (yields_step armed.switched free rfl).1.trans ?_
        simp only [Worker.respond, Worker.whenFree, Service.refusal?_debug.mpr (.inl ⟨off, rfl⟩)]
    | finishWithoutTask i c free on idle time =>
        refine (yields_step armed.switched free rfl).1.trans ?_
        simp only [Worker.respond, Worker.whenFree,
          Service.refusal?_debug.mpr (.inr (.inl ⟨on, idle, rfl⟩))]
    | finishUntracked i c free on t task quiet time =>
        refine (yields_step armed.switched free rfl).1.trans ?_
        simp only [Worker.respond, Worker.whenFree,
          Service.refusal?_debug.mpr (.inr (.inr ⟨on, t, task, quiet, rfl⟩))]
    | freedTooMuch i w there on delta tag below =>
        refine (yields_step armed.switched there rfl).1.trans ?_
        have sound := accounted i w there
        obtain ⟨c, guard⟩ := w
        cases guard with
        | none =>
            exact (Worker.outcome_violated _ _).mpr
              ((Service.arena_debug sound delta tag).mpr (.inr ⟨on, below, rfl⟩))
        | some g =>
            exact (Worker.outcome_violated _ _).mpr
              ((Guard.arena_debug sound delta tag).mpr ⟨on, below, rfl⟩)
  · rintro ⟨failed, crashed⟩
    cases own : st.thread with
    | some i =>
        cases there : s.workers[i]? with
        | none =>
            rw [step_noWorker there own] at failed
            cases failed
        | some w =>
            rw [(yields_step armed.switched there own).1] at failed
            exact violates_of_respond armed accounted there own failed crashed
    | none =>
        cases st with
        | enable =>
            cases armed.switched.cases with
            | inl off =>
                rw [step_enable_off off] at failed
                cases failed
            | inr on =>
                obtain ⟨table, on⟩ := on
                rw [step_enable_on on.enabled] at failed
                cases failed
                exact .enabledTwice on.enabled
        | report order human minSize limit =>
            rw [step_report] at failed
            dsimp only at failed
            split at failed <;> cases failed
        | views order minSize =>
            rw [step_views] at failed
            cases failed
        | newContext | lookup | hold | release | liveCount | purge => cases failed
        | _ => cases own

/-! ### Steps in place -/

/-- A violation stops a step. -/
def raised {σ α : Type} (p : InPlace Violation σ α) : InPlace Failure σ α := fun s =>
  ((p s).1.mapError .violated, (p s).2)

/-- A program on the context of a thread, as it was found in its place. -/
def onContext {α : Type} (i : Nat) (w : Worker) (p : InPlace Violation Context α) :
    InPlace Violation Session α :=
  on (fun _ => w.context) (fun s c => s.putWorker i { w with context := c }) p

def onService {α : Type} (p : InPlace Violation Service α) : InPlace Violation Session α :=
  on (·.service) (fun s service => { s with service }) p

def onBooks {α : Type} (p : InPlace Violation (Service × SymbolStore) α) :
    InPlace Violation Session α :=
  on (fun s => (s.service, s.symbols)) (fun s r => { s with service := r.1, symbols := r.2 }) p

def setGuard (s : Session) (i : Nat) (g : Option Guard) : Session :=
  { s with workers := s.workers.modify i fun w => { w with guard := g } }

/-- The guard of a thread is gone before the end of its compilation is looked at. -/
def dropGuardInPlace (f : Flavour) (i : Nat) (w : Worker) (g : Guard) (time : Seconds) :
    InPlace Violation Session Unit := do
  change (·.setGuard i none)
  onBooks (g.dropInPlace f w.context time)

/-- A step in place: each check and each change where it stands in the step. The other steps have no
contract. -/
def stepInPlace (f : Flavour) (cut : Cut) (s : Session) : Step → Except Failure Answer × Session
  | .enable => raised (do
      onService Service.enableInPlace
      return .done) s
  | .start i => s.withContext i fun c => raised (do
      onContext i ⟨c, none⟩ (s.service.startInPlace f)
      return .done) s
  | .arena i delta tag => s.withWorker i fun w => raised (do
      let reached ← onContext i w (match w.guard with
        | some _ => Guard.arenaInPlace f s.service delta tag
        | none => s.service.arenaInPlace f delta tag)
      return .flag reached) s
  | .finish i time => s.withContext i fun c => raised (do
      onBooks (Service.finishInPlace f c time)
      return .done) s
  | .enter i => s.withContext i fun c => raised (do
      let g ← onContext i ⟨c, none⟩ (Guard.enterInPlace f s.service)
      change (·.setGuard i (some g))
      return .flag g.active) s
  | .close i time => s.withWorker i fun w =>
      match w.guard with
      | none => (.ok (.flag false), s)
      | some g => raised (do
          dropGuardInPlace f i w g time
          return .flag true) s
  | .crash i time => s.withWorker i fun w =>
      match w.guard with
      | none => (.error (.violated .crashed), s)
      | some g => raised (do
          dropGuardInPlace f i w g time
          check (.error .crashed)) s
  | .report order human minSize limit =>
      match s.service.reportInPlace f cut order human minSize ⟨limit, ""⟩ with
      | (.ok (), o) => (.ok (.text o.taken), s)
      | (.error e, _) => (.error e, s)
  | st => s.step f st

variable {f : Flavour} {i : Nat} {w : Worker}

theorem raised_settled {p : InPlace Violation Session Answer}
    {x : Except Violation (Answer × Session)} (h : p s = settled s x) :
    raised p s = s.outcome x := by
  rw [raised, h]
  cases x <;> rfl

theorem onContext_settled (there : s.workers[i]? = some w) {α : Type}
    {p : InPlace Violation Context α} {x : Except Violation (α × Context)}
    (h : p w.context = settled w.context x) :
    onContext i w p s =
      settled s (x.map fun r => (r.1, s.putWorker i { w with context := r.2 })) := by
  obtain ⟨bound, eq⟩ := List.getElem?_eq_some_iff.mp there
  refine on_settled (fun _ => w.context) _ h ?_
  subst eq
  rw [putWorker, List.set_getElem_self]

theorem raised_onContext (there : s.workers[i]? = some w) {α : Type}
    {p : InPlace Violation Context α} {x : Except Violation (α × Context)}
    (h : p w.context = settled w.context x) (answer : α → Answer) :
    raised (onContext i w p >>= fun a => pure (answer a)) s =
      s.outcome (x >>= fun r => .ok (answer r.1, s.putWorker i { w with context := r.2 })) := by
  rw [raised_settled (map_settled (onContext_settled there h) answer)]
  cases x <;> rfl

theorem onBooks_settled {p : InPlace Violation (Service × SymbolStore) Unit}
    {x : Except Violation (Service × SymbolStore)}
    (h : p (s.service, s.symbols) = settled (s.service, s.symbols) (x.map fun r => ((), r))) :
    onBooks p s =
      settled s (x.map fun r => ((), { s with service := r.1, symbols := r.2 })) := by
  refine (on_settled (fun s : Session => (s.service, s.symbols)) _ h rfl).trans ?_
  cases x <;> rfl

theorem raised_onBooks {p : InPlace Violation (Service × SymbolStore) Unit}
    {x : Except Violation (Service × SymbolStore)}
    (h : p (s.service, s.symbols) = settled (s.service, s.symbols) (x.map fun r => ((), r)))
    (answer : Answer) :
    raised (onBooks p >>= fun _ => pure answer) s =
      s.outcome (x >>= fun r => .ok (answer, { s with service := r.1, symbols := r.2 })) := by
  rw [raised_settled (map_settled (onBooks_settled h) fun _ => answer)]
  cases x <;> rfl

theorem setGuard_of_worker (there : s.workers[i]? = some w) (g : Option Guard) :
    s.setGuard i g = s.putWorker i { w with guard := g } := by
  rw [setGuard, List.modify_eq_set_getElem?, there]
  rfl

theorem setGuard_putWorker (there : s.workers[i]? = some w) (w' : Worker) (g : Option Guard) :
    (s.putWorker i w').setGuard i g = s.putWorker i { w' with guard := g } := by
  have bound := (List.getElem?_eq_some_iff.mp there).1
  rw [setGuard_of_worker (w := w') (List.getElem?_set_self bound), putWorker, putWorker, putWorker,
    List.set_set]

/-- An active guard has something to commit, so dropping it in place does not fail either. -/
theorem dropGuardInPlace_eq (f : Flavour) (armed : s.Armed) {g : Guard}
    (there : s.workers[i]? = some w) (opened : w.guard = some g) (time : Seconds) :
    ∃ s', s.dropGuard f i w g time = .ok s' ∧
      dropGuardInPlace f i w g time s = (.ok (), s') := by
  have unrefused : (if g.active then s.service.refusal? f w.context else none) = none := by
    by_cases active : g.active = true
    · rw [if_pos active, Service.refusal?_of_tracks (armed.tracks i w g there opened active)]
    · rw [if_neg active]
  have dropped := dropGuard_of_refusal f armed.switched i w g time
  rw [unrefused] at dropped
  obtain ⟨s', run, -⟩ := dropped
  refine ⟨s', run, ?_⟩
  obtain ⟨⟨service, symbols⟩, finished, run⟩ := exists_of_bind_eq_ok run
  cases run
  have inPlace := onBooks_settled (s := s.putWorker i { w with guard := none })
    (g.dropInPlace_eq f s.service s.symbols w.context time)
  rw [finished] at inPlace
  rw [dropGuardInPlace, change_bind, setGuard_of_worker there]
  exact inPlace

theorem withWorker_congr {step step' : Worker → Except Failure Answer × Session}
    (same : ∀ w, s.workers[i]? = some w → step w = step' w) :
    s.withWorker i step = s.withWorker i step' := by
  cases there : s.workers[i]? with
  | none => rw [withWorker, withWorker, there]
  | some w =>
      simp only [withWorker, there]
      exact same w there

theorem withContext_congr {step step' : Context → Except Failure Answer × Session}
    (same : ∀ c, s.workers[i]? = some ⟨c, none⟩ → step c = step' c) :
    s.withContext i step = s.withContext i step' := by
  refine withWorker_congr fun w there => ?_
  obtain ⟨c, guard⟩ := w
  cases guard with
  | none => exact same c there
  | some g => rfl

/-- Where every open guard has something to commit and every counter is sound, a step in place comes
to what the step comes to. -/
theorem stepInPlace_eq (f : Flavour) (cut : Cut) (armed : s.Armed) (accounted : s.Accounted)
    (st : Step) : s.stepInPlace f cut st = s.step f st := by
  cases st with
  | enable =>
      have enabled := on_settled service (fun s service => { s with service })
        s.service.enableInPlace_eq rfl
      refine (raised_settled (map_settled enabled fun _ => .done)).trans ?_
      rw [step]
      cases s.service.enable <;> rfl
  | start i =>
      rw [stepInPlace, step]
      refine withContext_congr fun c there => ?_
      rw [raised_onContext there (s.service.startInPlace_eq f c) fun _ => .done]
      cases s.service.start f c <;> rfl
  | arena i delta tag =>
      rw [stepInPlace, step]
      refine withWorker_congr fun w there => ?_
      have sound := accounted i w there
      obtain ⟨c, guard⟩ := w
      cases guard with
      | none => exact raised_onContext there (s.service.arenaInPlace_eq f sound delta tag) .flag
      | some g =>
          exact raised_onContext there (Guard.arenaInPlace_eq f s.service sound delta tag) .flag
  | finish i time =>
      rw [stepInPlace, step]
      refine withContext_congr fun c there => ?_
      exact raised_onBooks (s.service.finishInPlace_eq f s.symbols c time) .done
  | enter i =>
      rw [stepInPlace, step]
      refine withContext_congr fun c there => ?_
      have entered := onContext_settled there (Guard.enterInPlace_eq f s.service c)
      rw [Guard.enter_eq] at entered ⊢
      rw [raised, bind_ok entered, change_bind, setGuard_putWorker there]
      rfl
  | close i time =>
      rw [stepInPlace, step]
      refine withWorker_congr fun w there => ?_
      cases opened : w.guard with
      | none => rfl
      | some g =>
          obtain ⟨s', run, inPlace⟩ := dropGuardInPlace_eq f armed there opened time
          simp only [raised, bind_ok inPlace, run]
          rfl
  | crash i time =>
      rw [stepInPlace, step]
      refine withWorker_congr fun w there => ?_
      cases opened : w.guard with
      | none => rfl
      | some g =>
          obtain ⟨s', run, inPlace⟩ := dropGuardInPlace_eq f armed there opened time
          simp only [raised, bind_ok inPlace, run]
          rfl
  | report order human minSize limit =>
      rw [step_report, stepInPlace]
      have written := s.service.reportInPlace_eq f cut order human minSize limit
      cases within : s.service.reportWithin order human minSize limit with
      | some text =>
          rw [within] at written
          simp only [written]
      | none =>
          rw [within] at written
          obtain ⟨o, full⟩ := written
          simp only [full]
  | _ => rfl

/-! ### What a failed operation leaves -/

/-- Where it fails, but for a crash, the session is as it was. -/
def AllOrNothing (s : Session) (r : Except Failure Answer × Session) : Prop :=
  ∀ e, r.1 = .error e → e ≠ .violated .crashed → r.2 = s

theorem allOrNothing_self (s : Session) (a : Except Failure Answer) : s.AllOrNothing (a, s) :=
  fun _ _ _ => rfl

theorem allOrNothing_ok (s s' : Session) (a : Answer) : s.AllOrNothing (.ok a, s') :=
  fun _ failed => by cases failed

theorem allOrNothing_outcome (s : Session) (r : Except Violation (Answer × Session)) :
    s.AllOrNothing (s.outcome r) := by
  cases r with
  | error v => exact allOrNothing_self s _
  | ok r => exact allOrNothing_ok s _ _

theorem allOrNothing_withWorker {step : Worker → Except Failure Answer × Session}
    (keeps : ∀ w, s.AllOrNothing (step w)) : s.AllOrNothing (s.withWorker i step) := by
  rw [withWorker]
  split
  · exact keeps _
  · exact allOrNothing_self s _

theorem allOrNothing_withContext {step : Context → Except Failure Answer × Session}
    (keeps : ∀ c, s.AllOrNothing (step c)) : s.AllOrNothing (s.withContext i step) := by
  refine allOrNothing_withWorker fun w => ?_
  split
  · exact keeps _
  · exact allOrNothing_self s _

theorem allOrNothing_step (f : Flavour) (s : Session) (st : Step) :
    s.AllOrNothing (s.step f st) := by
  cases st with
  | enable => exact allOrNothing_outcome s _
  | start i | finish i time | enter i =>
      exact allOrNothing_withContext fun c => allOrNothing_outcome s _
  | setTask | clearTask => exact allOrNothing_withContext fun c => allOrNothing_ok s _ _
  | task i => exact allOrNothing_withWorker fun w => allOrNothing_self s _
  | setLive i n => exact allOrNothing_withWorker fun w => allOrNothing_ok s _ _
  | arena i delta tag => exact allOrNothing_withWorker fun w => allOrNothing_outcome s _
  | close i time =>
      refine allOrNothing_withWorker fun w => ?_
      split
      · exact allOrNothing_self s _
      · exact allOrNothing_outcome s _
  | crash i time =>
      refine allOrNothing_withWorker fun w => ?_
      split
      · exact allOrNothing_self s _
      · split
        · exact fun e failed crashed => absurd (Except.error.inj failed).symm crashed
        · exact allOrNothing_self s _
  | report order human minSize limit =>
      rw [step_report]
      exact allOrNothing_self s _
  | views order minSize =>
      rw [step_views]
      exact allOrNothing_self s _
  | newContext | lookup | hold | release | liveCount | purge => exact allOrNothing_ok s _ _

end Session

/-- A reply that turns an operation down. A crash does not; it drops its guard on the way out. -/
def Reply.refuses : Reply → Prop
  | .answer (.error e) => e ≠ .violated .crashed
  | .outcome (.error _) => True
  | .answer (.ok _) | .outcome (.ok _) => False

namespace Session

variable {f : Flavour} {s : Session}

theorem operate_of_refuses (switched : s.service.Switched) {op : Operation}
    (refused : (s.operate f op).1.refuses) :
    (s.operate f op).2 = s := by
  cases op with
  | step st =>
      have keeps := allOrNothing_step f s st
      cases answer : (s.step f st).1 with
      | ok a =>
          simp only [operate, answer] at refused
          exact refused.elim
      | error e =>
          simp only [operate, answer] at refused
          exact keeps e answer refused
  | replay job =>
      cases job.run_cases f s.site switched with
      | inl invalid =>
          obtain ⟨fault, -, run⟩ := invalid
          simp only [operate, run]
          rfl
      | inr valid =>
          obtain ⟨-, p, run, -⟩ := valid
          simp only [operate, run] at refused
          exact refused.elim

/-- A script from which an operation that was turned down is taken out goes on as before. -/
theorem trail_eraseIdx (f : Flavour) (switched : s.service.Switched)
    (before after : List Operation) (op : Operation)
    (refused : ((s.reached f before).operate f op).1.refuses) :
    (trail (operate f) s (before ++ op :: after)).eraseIdx before.length =
      trail (operate f) s (before ++ after) := by
  induction before generalizing s with
  | nil =>
      have same : (s.operate f op).2 = s := operate_of_refuses switched refused
      rw [List.nil_append, trail, same]
      rfl
  | cons first before ih =>
      exact congrArg (List.cons _) (ih (switched_operate switched first) refused)

/-- In a debug build what fails leaves no trace. -/
structure LeavesNoTrace (inline : InlineOutput) (ops : List Operation) (s : Session) : Prop where
  /-- The contracts that a step can violate, each told from the session before it. -/
  contracts : ∀ st v, s.Violates st v ↔ (s.step .debug st).1 = .error (.violated v) ∧ v ≠ .crashed
  /-- Nothing has changed in place by the time a step fails. -/
  unchanged : ∀ cut st e, (s.stepInPlace .debug cut st).1 = .error e → e ≠ .violated .crashed →
    (s.stepInPlace .debug cut st).2 = s
  /-- In place a step comes to what it comes to as a function, fail or not. -/
  inPlace : ∀ cut st, s.stepInPlace .debug cut st = s.step .debug st
  /-- A replay validates its trace before anything else, and where it fails it has done nothing. -/
  replays : ∀ job : Replay.Job, job.runInPlace .debug s.site = job.run .debug s.site ∧
    ∀ e, (job.runInPlace .debug s.site).1 = .error e →
      (∃ fault, e = .invalid fault) ∧ (job.runInPlace .debug s.site).2 = s.site
  /-- All other answers and sessions of a script stay when the failed operation is taken out. -/
  deleted : ∀ op after, (s.operate .debug op).1.refuses →
    (trail (operate .debug) (new inline) (ops ++ op :: after)).eraseIdx ops.length =
      trail (operate .debug) (new inline) (ops ++ after)
  /-- An output runs full exactly when the whole report is longer than its limit. -/
  full : ∀ cut order human minSize limit,
    (s.stepInPlace .debug cut (.report order human minSize (some limit))).1 = .error .sinkFull ↔
      limit < (s.service.report order human minSize).utf8ByteSize

theorem leavesNoTrace_reached (inline : InlineOutput) (ops : List Operation) :
    LeavesNoTrace inline ops ((new inline).reached .debug ops) := by
  have armed := armed_reached .debug inline ops
  have accounted := accounted_reached .debug inline ops
  refine ⟨fun st v => violates_iff armed accounted, ?_,
    fun cut st => stepInPlace_eq .debug cut armed accounted st,
    fun job => ⟨job.runInPlace_eq .debug _, fun e failed => ?_⟩,
    fun op after refused =>
      trail_eraseIdx .debug (Service.switched_new inline) ops after op refused, ?_⟩
  · intro cut st e failed crashed
    rw [stepInPlace_eq .debug cut armed accounted] at failed ⊢
    exact allOrNothing_step .debug _ st e failed crashed
  · rw [job.runInPlace_eq] at failed ⊢
    cases job.run_cases .debug (site _) armed.switched with
    | inl invalid =>
        obtain ⟨fault, -, run⟩ := invalid
        rw [run] at failed ⊢
        cases failed
        exact ⟨⟨fault, rfl⟩, rfl⟩
    | inr valid =>
        obtain ⟨-, p, run, -⟩ := valid
        rw [run] at failed
        cases failed
  · intro cut order human minSize limit
    rw [stepInPlace_eq .debug cut armed accounted, step_report, Service.reportWithin]
    by_cases exceeds : limit < (((new inline).reached .debug ops).service.report order human
        minSize).utf8ByteSize
    · simp [exceeds]
    · simp [exceeds]

end Session

end ArenaPeak
