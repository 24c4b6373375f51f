import ArenaPeak.Proofs.Hooks
import ArenaPeak.Session
import Mathlib.Logic.Function.Basic

/-!
What the steps of a session can do to its records, to its symbols and to the methods its threads
work on. Most steps reach none of them. A compilation that ends commits to the record of the
thread's method, or it changes nothing at all.
-/

namespace ArenaPeak

namespace Service

/-- What the end of a compilation commits. A debug build refuses a task that is not tracked. -/
def commit? (f : Flavour) (s : Service) (c : Context) (time : Seconds) : Option Commit :=
  match c.task with
  | some t =>
      if s.enabled && (t.directive.collects || !f.checks) then some (commitOf c t time) else none
  | none => none

variable {f : Flavour} {s s' : Service} {c c' : Context} {symbols symbols' : SymbolStore}

theorem finish_cases (f : Flavour) (switched : s.Switched) (symbols : SymbolStore) (c : Context)
    (time : Seconds) :
    (s.commit? f c time = none ∧
      ∀ s' symbols', s.finish f symbols c time = .ok (s', symbols') →
        s' = s ∧ symbols' = symbols) ∨
    ∃ table t, s.On table ∧ c.task = some t ∧ s.commit? f c time = some (commitOf c t time) ∧
      s.finish f symbols c time = .ok (s.commit f table c t time, symbols.pinMethod t.method) := by
  cases switched.cases with
  | inl off =>
      refine .inl ⟨?_, ?_⟩
      · cases task : c.task <;> simp [commit?, task, off.enabled]
      · intro s' symbols' run
        cases f <;>
          simp [finish, off.enabled, off.table, Flavour.assert, Flavour.checks, bind, Except.bind,
            pure, Except.pure] at run
        exact ⟨run.1.symm, run.2.symm⟩
  | inr on =>
      obtain ⟨table, on⟩ := on
      cases task : c.task with
      | none =>
          refine .inl ⟨by simp [commit?, task], ?_⟩
          intro s' symbols' run
          cases f <;>
            simp [finish, on.enabled, on.table, task, Flavour.assert, Flavour.checks, bind,
              Except.bind, pure, Except.pure] at run
          exact ⟨run.1.symm, run.2.symm⟩
      | some t =>
          by_cases allowed : (t.directive.collects || !f.checks) = true
          · refine .inr ⟨table, t, on, rfl, ?_, ?_⟩
            · simp only [commit?, task, on.enabled, Bool.true_and, allowed, if_true]
            · have checked : f.assert t.directive.collects .endWithoutTracking = .ok () := by
                cases f <;> simp_all [Flavour.assert, Flavour.checks]
              simp [finish, on.enabled, on.table, task, Flavour.assert_true, checked, bind,
                Except.bind, pure, Except.pure]
          · have refused : f.checks = true ∧ t.directive.collects = false := by
              simpa [and_comm] using allowed
            refine .inl ⟨?_, ?_⟩
            · simp only [commit?, task, allowed, Bool.and_false, Bool.false_eq_true, if_false]
            · intro s' symbols' run
              simp [finish, on.enabled, on.table, task, Flavour.assert, refused, bind,
                Except.bind] at run

theorem start_task (h : s.start f c = .ok c') : c'.task = c.task := by
  obtain ⟨_, -, run⟩ := exists_of_bind_eq_ok h
  cases run
  split <;> rfl

theorem account_task {delta : Int64} {tag : ArenaTag} {b : Bool}
    (h : c.account f delta tag = .ok (b, c')) : c'.task = c.task := by
  obtain ⟨_, -, run⟩ := exists_of_bind_eq_ok h
  cases run
  rfl

theorem arena_task {delta : Int64} {tag : ArenaTag} {b : Bool}
    (h : s.arena f c delta tag = .ok (b, c')) : c'.task = c.task := by
  obtain ⟨_, -, run⟩ := exists_of_bind_eq_ok h
  split at run
  · exact account_task run
  · cases run
    rfl

end Service

theorem Guard.arena_task {f : Flavour} {s : Service} {c c' : Context} {delta : Int64}
    {tag : ArenaTag} {b : Bool} (h : Guard.arena f s c delta tag = .ok (b, c')) :
    c'.task = c.task := by
  rw [Guard.arena] at h
  split at h
  · exact Service.arena_task h
  · cases h
    rfl

namespace Session

/-- The method a thread works on. -/
def methodOf (s : Session) (i : Nat) : Option Method :=
  (s.workers[i]?).bind fun w => w.context.task.map (·.method)

/-- Neither the switch, nor the records, nor the symbols, nor what a thread works on have changed. -/
structure Quiet (s s' : Session) : Prop where
  enabled : s'.service.enabled = s.service.enabled
  table : s'.service.table = s.service.table
  symbols : s'.symbols = s.symbols
  methods : s'.methodOf = s.methodOf

/-- A commit to the record of the method that a thread works on. -/
structure Committed (s s' : Session) (i : Nat) (m : Method) (c : Commit) : Prop where
  works : s.methodOf i = some m
  table : ∃ table, s.service.On table ∧ s'.service.On (table.upsert m c)
  symbols : s'.symbols = s.symbols.pinMethod m
  methods : s'.methodOf = s.methodOf

variable {f : Flavour} {s : Session} {i : Nat} {w w' : Worker}

theorem quiet_refl (s : Session) : s.Quiet s :=
  ⟨rfl, rfl, rfl, rfl⟩

theorem methodOf_of_worker (there : s.workers[i]? = some w) :
    s.methodOf i = w.context.task.map (·.method) := by
  rw [methodOf, there]
  rfl

theorem methodOf_putWorker (there : s.workers[i]? = some w) :
    (s.putWorker i w').methodOf =
      Function.update s.methodOf i (w'.context.task.map (·.method)) := by
  have bound : i < s.workers.length := (List.getElem?_eq_some_iff.mp there).1
  funext j
  by_cases same : j = i
  · subst same
    rw [Function.update_self, methodOf, putWorker, List.getElem?_set_self bound]
    rfl
  · rw [Function.update_of_ne same, methodOf, methodOf, putWorker,
      List.getElem?_set_ne (Ne.symm same)]

/-- A thread that goes on with its task works on the same method. -/
theorem methodOf_putWorker_same (there : s.workers[i]? = some w)
    (task : w'.context.task = w.context.task) : (s.putWorker i w').methodOf = s.methodOf := by
  rw [methodOf_putWorker there, task, ← methodOf_of_worker there, Function.update_eq_self]

theorem quiet_putWorker (there : s.workers[i]? = some w)
    (task : w'.context.task = w.context.task) : s.Quiet (s.putWorker i w') :=
  ⟨rfl, rfl, rfl, methodOf_putWorker_same there task⟩

theorem quiet_setLive (there : s.workers[i]? = some w) (n : UInt32) :
    s.Quiet (s.putWorker i { w with context := w.context.setLive n }) := by
  refine ⟨rfl, rfl, rfl, ?_⟩
  have same : (w.context.setLive n).task.map (·.method) = s.methodOf i := by
    rw [methodOf_of_worker there, Context.setLive, Option.map_map]
    rfl
  rw [methodOf_putWorker there, same, Function.update_eq_self]

/-- Whatever a thread works on is held. -/
theorem held_of_methodOf {m : Method} (works : s.methodOf i = some m) : m.symbols ⊆ s.held := by
  intro symbol mem
  obtain ⟨w, there, task⟩ := Option.bind_eq_some_iff.mp works
  obtain ⟨t, working, rfl⟩ := Option.map_eq_some_iff.mp task
  refine List.mem_append_left _ (List.mem_append_left _ (List.mem_flatMap.mpr ⟨w, ?_, ?_⟩))
  · exact List.mem_of_getElem? there
  · simp only [Context.held, working]
    exact mem

/-! ### Steps on a thread -/

theorem withWorker_cases (s : Session) (i : Nat)
    (step : Worker → Except Failure Answer × Session) :
    s.withWorker i step = (.error .noWorker, s) ∨
      ∃ w, s.workers[i]? = some w ∧ s.withWorker i step = step w := by
  cases there : s.workers[i]? with
  | none => exact .inl (by rw [withWorker, there])
  | some w => exact .inr ⟨w, rfl, by rw [withWorker, there]⟩

theorem withContext_cases (s : Session) (i : Nat)
    (step : Context → Except Failure Answer × Session) :
    (∃ e, s.withContext i step = (.error e, s)) ∨
      ∃ c, s.workers[i]? = some ⟨c, none⟩ ∧ s.withContext i step = step c := by
  cases withWorker_cases s i _ with
  | inl gone =>
      exact .inl ⟨_, gone⟩
  | inr present =>
      obtain ⟨w, there, run⟩ := present
      obtain ⟨c, guard⟩ := w
      cases guard with
      | none => exact .inr ⟨c, there, run⟩
      | some g => exact .inl ⟨_, run⟩

theorem setTask_cases (f : Flavour) (s : Session) (i table : Nat) (name : MethodName)
    (kind : CompilerKind) (directive : Directive) (live : Option UInt32) :
    (∃ e, s.step f (.setTask i table name kind directive live) = (.error e, s)) ∨
      ∃ c, s.workers[i]? = some ⟨c, none⟩ ∧
        s.step f (.setTask i table name kind directive live) =
          (.ok (.task c.task),
            { s with symbols := (s.symbols.internMethod s.held table name).2 }.putWorker i
              ⟨c.setTask ⟨(s.symbols.internMethod s.held table name).1, kind, directive, live⟩,
                none⟩) := by
  simp only [step]
  exact withContext_cases s i _

theorem clearTask_cases (f : Flavour) (s : Session) (i : Nat) :
    (∃ e, s.step f (.clearTask i) = (.error e, s)) ∨
      ∃ c, s.workers[i]? = some ⟨c, none⟩ ∧
        s.step f (.clearTask i) = (.ok (.task c.task), s.putWorker i ⟨c.clearTask, none⟩) := by
  simp only [step]
  exact withContext_cases s i _

theorem quiet_withWorker {step : Worker → Except Failure Answer × Session}
    (quiet : ∀ w, s.workers[i]? = some w → s.Quiet (step w).2) :
    s.Quiet (s.withWorker i step).2 := by
  cases withWorker_cases s i step with
  | inl gone =>
      rw [gone]
      exact quiet_refl s
  | inr present =>
      obtain ⟨w, there, run⟩ := present
      rw [run]
      exact quiet w there

theorem quiet_withContext {step : Context → Except Failure Answer × Session}
    (quiet : ∀ c, s.workers[i]? = some ⟨c, none⟩ → s.Quiet (step c).2) :
    s.Quiet (s.withContext i step).2 := by
  cases withContext_cases s i step with
  | inl refused =>
      obtain ⟨e, failed⟩ := refused
      rw [failed]
      exact quiet_refl s
  | inr present =>
      obtain ⟨c, there, run⟩ := present
      rw [run]
      exact quiet c there

/-- A hook that fails leaves the session alone. -/
theorem quiet_outcome {r : Except Violation (Answer × Session)}
    (quiet : ∀ a s', r = .ok (a, s') → s.Quiet s') : s.Quiet (s.outcome r).2 := by
  cases r with
  | error v => exact quiet_refl s
  | ok p => exact quiet p.1 p.2 rfl

/-- Steps that reach neither the records, nor the symbols, nor what a thread works on. -/
def Step.idle : Step → Bool
  | .newContext | .task _ | .setLive _ _ | .start _ | .arena _ _ _ | .enter _ | .report _ _ _ _
  | .views _ _ | .release _ | .liveCount _ => true
  | _ => false

theorem quiet_newContext (s : Session) (thread next : ThreadId) :
    s.Quiet { s with workers := s.workers ++ [⟨.new thread, none⟩], nextThread := next } := by
  refine ⟨rfl, rfl, rfl, ?_⟩
  funext i
  simp only [methodOf]
  by_cases lt : i < s.workers.length
  · rw [List.getElem?_append_left lt]
  · by_cases new : i = s.workers.length
    · subst new
      simp [Context.new]
    · rw [List.getElem?_eq_none (by simp; omega), List.getElem?_eq_none (by omega)]

theorem step_enable_off (off : s.service.Off) :
    s.step f .enable =
      (.ok .done,
        { s with service := { s.service with enabled := true, table := some .empty } }) := by
  simp only [step, Service.enable_off off]
  rfl

theorem step_enable_on (on : s.service.enabled = true) :
    s.step f .enable = (.error (.violated .enabledTwice), s) := by
  simp only [step, Service.enable_on on]
  rfl

/-- The audit of a report goes through, so a report fails only for want of room. -/
theorem step_report (f : Flavour) (s : Session) (order : Arrangement) (human : Bool)
    (minSize : UInt64) (limit : Option Nat) :
    s.step f (.report order human minSize limit) =
      (match s.service.reportWithin order human minSize limit with
        | some text => .ok (.text text)
        | none => .error .sinkFull, s) := by
  simp only [step, Service.audit_eq]
  cases s.service.reportWithin order human minSize limit <;> rfl

theorem step_views (f : Flavour) (s : Session) (order : Arrangement) (minSize : UInt64) :
    s.step f (.views order minSize) = (.ok (.views (s.service.views order minSize)), s) := by
  simp only [step, Service.audit_eq]
  rfl

theorem quiet_step (f : Flavour) (s : Session) {st : Step} (idle : st.idle = true) :
    s.Quiet (s.step f st).2 := by
  cases st with
  | newContext => exact quiet_newContext s _ _
  | task i => exact quiet_withWorker fun w there => quiet_refl s
  | setLive i n => exact quiet_withWorker fun w there => quiet_setLive there n
  | start i =>
      refine quiet_withContext fun c there => quiet_outcome fun a s' run => ?_
      obtain ⟨c', started, run⟩ := exists_of_bind_eq_ok run
      cases run
      exact quiet_putWorker there (Service.start_task started)
  | arena i delta tag =>
      refine quiet_withWorker fun w there => quiet_outcome fun a s' run => ?_
      dsimp only at run
      split at run
      · obtain ⟨⟨reached, c'⟩, counted, run⟩ := exists_of_bind_eq_ok run
        cases run
        exact quiet_putWorker there (Guard.arena_task counted)
      · obtain ⟨⟨reached, c'⟩, counted, run⟩ := exists_of_bind_eq_ok run
        cases run
        exact quiet_putWorker there (Service.arena_task counted)
  | enter i =>
      refine quiet_withContext fun c there => quiet_outcome fun a s' run => ?_
      rw [Guard.enter_eq] at run
      cases run
      refine quiet_putWorker there ?_
      dsimp only
      split <;> rfl
  | report order human minSize limit =>
      rw [step_report]
      exact quiet_refl s
  | views order minSize =>
      rw [step_views]
      exact quiet_refl s
  | release k => exact ⟨rfl, rfl, rfl, rfl⟩
  | liveCount table => exact quiet_refl s
  | _ => cases idle

/-! ### Compilations that end -/

/-- The thread and the context of the compilation that a step ends, by the hook or by dropping an
active guard on whatever way out, and the time at which it does. -/
def ending? (s : Session) : Step → Option (Nat × Context × Seconds)
  | .finish i time =>
      match s.workers[i]? with
      | some ⟨c, none⟩ => some (i, c, time)
      | _ => none
  | .close i time | .crash i time =>
      match s.workers[i]? with
      | some ⟨c, some g⟩ => if g.active then some (i, c, time) else none
      | _ => none
  | _ => none

/-- What a step commits, and the thread that does. -/
def commit? (f : Flavour) (s : Session) (st : Step) : Option (Nat × Commit) :=
  (s.ending? st).bind fun (i, c, time) =>
    (s.service.commit? f c time).map fun commit => (i, commit)

/-- A step that ends a compilation either commits or changes nothing that matters to the records. -/
def Ends (f : Flavour) (s : Session) (st : Step) : Prop :=
  (s.commit? f st = none ∧ s.Quiet (s.step f st).2) ∨
    ∃ i m c, s.commit? f st = some (i, c) ∧ s.Committed (s.step f st).2 i m c

theorem ends_finish (f : Flavour) (switched : s.service.Switched) (i : Nat) (time : Seconds) :
    s.Ends f (.finish i time) := by
  by_cases free : ∃ c, s.workers[i]? = some ⟨c, none⟩
  · obtain ⟨c, there⟩ := free
    have ending : s.ending? (.finish i time) = some (i, c, time) := by simp [ending?, there]
    cases Service.finish_cases f switched s.symbols c time with
    | inl idle =>
        obtain ⟨none, idle⟩ := idle
        refine .inl ⟨by simp [commit?, ending, none], quiet_withContext ?_⟩
        intro c' there'
        obtain rfl : c = c' := by simpa [there] using there'
        refine quiet_outcome ?_
        intro a s' run
        obtain ⟨⟨service, symbols⟩, finished, run⟩ := exists_of_bind_eq_ok run
        obtain ⟨rfl, rfl⟩ := idle service symbols finished
        cases run
        exact quiet_refl s
    | inr active =>
        obtain ⟨table, t, on, task, commits, run⟩ := active
        have left : (s.step f (.finish i time)).2 =
            { s with
              service := s.service.commit f table c t time
              symbols := s.symbols.pinMethod t.method } := by
          simp [step, withContext, withWorker, there, outcome, run, bind, Except.bind, pure,
            Except.pure]
        refine .inr ⟨i, t.method, Service.commitOf c t time,
          by simp [commit?, ending, commits], ?_⟩
        rw [left]
        refine ⟨?_, ⟨table, on, Service.commit_on f on c t time⟩, rfl, rfl⟩
        rw [methodOf_of_worker there, task]
        rfl
  · have nothing : s.ending? (.finish i time) = none := by
      rw [ending?]
      split
      · next c there => exact absurd ⟨c, there⟩ free
      · rfl
    refine .inl ⟨by simp [commit?, nothing], quiet_withContext ?_⟩
    intro c there
    exact absurd ⟨c, there⟩ free

theorem dropGuard_cases (f : Flavour) (switched : s.service.Switched)
    (there : s.workers[i]? = some w) (g : Guard) (time : Seconds) :
    ((g.active = true → s.service.commit? f w.context time = none) ∧
      ∀ s', s.dropGuard f i w g time = .ok s' → s.Quiet s') ∨
    ∃ m c s', g.active = true ∧ s.service.commit? f w.context time = some c ∧
      s.dropGuard f i w g time = .ok s' ∧ s.Committed s' i m c := by
  cases active : g.active with
  | false =>
      refine .inl ⟨by simp, fun s' run => ?_⟩
      simp only [dropGuard, Guard.drop, active, Bool.false_eq_true, if_false] at run
      cases run
      exact quiet_putWorker there rfl
  | true =>
      cases Service.finish_cases f switched s.symbols w.context time with
      | inl idle =>
          obtain ⟨none, idle⟩ := idle
          refine .inl ⟨fun _ => none, fun s' run => ?_⟩
          simp only [dropGuard, Guard.drop, active, if_true] at run
          obtain ⟨⟨service, symbols⟩, finished, run⟩ := exists_of_bind_eq_ok run
          obtain ⟨rfl, rfl⟩ := idle service symbols finished
          cases run
          exact quiet_putWorker there rfl
      | inr active =>
          obtain ⟨table, t, on, task, commits, run⟩ := active
          refine .inr ⟨t.method, Service.commitOf w.context t time,
            { s with
              service := s.service.commit f table w.context t time
              symbols := s.symbols.pinMethod t.method }.putWorker i { w with guard := none },
            rfl, commits, ?_, ?_⟩
          · simp [dropGuard, Guard.drop, active, run, bind, Except.bind, pure, Except.pure]
          · refine ⟨?_, ⟨table, on, Service.commit_on f on w.context t time⟩, rfl,
              methodOf_putWorker_same there rfl⟩
            rw [methodOf_of_worker there, task]
            rfl

/-- The session after the open guard of a thread, if there is one, is dropped. -/
def dropped (f : Flavour) (s : Session) (i : Nat) (time : Seconds) : Session :=
  match s.workers[i]? with
  | none => s
  | some w =>
      match w.guard with
      | none => s
      | some g =>
          match s.dropGuard f i w g time with
          | .ok s' => s'
          | .error _ => s

theorem step_close (f : Flavour) (s : Session) (i : Nat) (time : Seconds) :
    (s.step f (.close i time)).2 = s.dropped f i time := by
  simp only [step, withWorker, dropped]
  cases s.workers[i]? with
  | none => rfl
  | some w =>
      obtain ⟨c, guard⟩ := w
      cases guard with
      | none => rfl
      | some g => cases run : s.dropGuard f i ⟨c, some g⟩ g time <;> simp only [run] <;> rfl

theorem step_crash (f : Flavour) (s : Session) (i : Nat) (time : Seconds) :
    (s.step f (.crash i time)).2 = s.dropped f i time := by
  simp only [step, withWorker, dropped]
  cases s.workers[i]? with
  | none => rfl
  | some w =>
      obtain ⟨c, guard⟩ := w
      cases guard with
      | none => rfl
      | some g => cases run : s.dropGuard f i ⟨c, some g⟩ g time <;> simp only [run]

theorem ends_close (f : Flavour) (switched : s.service.Switched) (i : Nat) (time : Seconds) :
    s.Ends f (.close i time) := by
  rw [Ends, step_close]
  cases there : s.workers[i]? with
  | none => exact .inl ⟨by simp [commit?, ending?, there], by simp [dropped, there, quiet_refl]⟩
  | some w =>
      obtain ⟨c, guard⟩ := w
      cases guard with
      | none => exact .inl ⟨by simp [commit?, ending?, there], by simp [dropped, there, quiet_refl]⟩
      | some g =>
          cases dropGuard_cases f switched there g time with
          | inl idle =>
              obtain ⟨none, quiet⟩ := idle
              refine .inl ⟨?_, ?_⟩
              · by_cases active : g.active = true
                · simp [commit?, ending?, there, active, none active]
                · simp [commit?, ending?, there, active]
              · simp only [dropped, there]
                split
                · next s' run => exact quiet s' run
                · exact quiet_refl s
          | inr active =>
              obtain ⟨m, commit, s', active, commits, run, committed⟩ := active
              refine .inr ⟨i, m, commit, by simp [commit?, ending?, there, active, commits], ?_⟩
              simp only [dropped, there, run]
              exact committed

/-- A crash drops the guard on its way out, as closing it does. -/
theorem ends_crash (f : Flavour) (switched : s.service.Switched) (i : Nat) (time : Seconds) :
    s.Ends f (.crash i time) := by
  have ends := ends_close f switched i time
  rw [Ends, step_close] at ends
  rw [Ends, step_crash]
  exact ends

/-! ### The switch and the table -/

/-- What a step does to the switch and to the table. -/
inductive TableStep (f : Flavour) (s : Session) (st : Step) : Prop
  | same (quiet : s.commit? f st = none)
      (enabled : (s.step f st).2.service.enabled = s.service.enabled)
      (after : (s.step f st).2.service.table = s.service.table)
  | created (quiet : s.commit? f st = none) (before : s.service.Off)
      (after : (s.step f st).2.service.On .empty)
  | committed (i : Nat) (m : Method) (c : Commit) (commits : s.commit? f st = some (i, c))
      (after : s.Committed (s.step f st).2 i m c)

theorem tableStep_of_ends {st : Step} (ends : s.Ends f st) : s.TableStep f st := by
  cases ends with
  | inl idle => exact .same idle.1 idle.2.enabled idle.2.table
  | inr active =>
      obtain ⟨i, m, c, commits, after⟩ := active
      exact .committed i m c commits after

theorem tableStep (f : Flavour) (switched : s.service.Switched) (st : Step) :
    s.TableStep f st := by
  cases st with
  | enable =>
      cases switched.cases with
      | inl off =>
          refine .created rfl off ?_
          rw [step_enable_off off]
          exact ⟨rfl, rfl⟩
      | inr on =>
          obtain ⟨table, on⟩ := on
          have refused := step_enable_on (f := f) on.enabled
          exact .same rfl (by rw [refused]) (by rw [refused])
  | setTask i table name kind directive live =>
      have service :
          (s.step f (.setTask i table name kind directive live)).2.service = s.service := by
        cases setTask_cases f s i table name kind directive live with
        | inl refused =>
            obtain ⟨e, failed⟩ := refused
            rw [failed]
        | inr taken =>
            obtain ⟨c, -, run⟩ := taken
            rw [run]
            rfl
      exact .same rfl (congrArg _ service) (congrArg _ service)
  | clearTask i =>
      have service : (s.step f (.clearTask i)).2.service = s.service := by
        cases clearTask_cases f s i with
        | inl refused =>
            obtain ⟨e, failed⟩ := refused
            rw [failed]
        | inr taken =>
            obtain ⟨c, -, run⟩ := taken
            rw [run]
            rfl
      exact .same rfl (congrArg _ service) (congrArg _ service)
  | finish i time => exact tableStep_of_ends (ends_finish f switched i time)
  | close i time => exact tableStep_of_ends (ends_close f switched i time)
  | crash i time => exact tableStep_of_ends (ends_crash f switched i time)
  | lookup | hold | purge => exact .same rfl rfl rfl
  | newContext | task | setLive | start | arena | enter | report | views | release | liveCount =>
      exact tableStep_of_ends (.inl ⟨rfl, quiet_step f s rfl⟩)

/-- Once on, the service stays on. -/
theorem enabled_step (switched : s.service.Switched) (on : s.service.enabled = true) (st : Step) :
    (s.step f st).2.service.enabled = true := by
  cases tableStep f switched st with
  | same quiet enabled after => exact enabled.trans on
  | created quiet before after => exact after.enabled
  | committed i m c commits after =>
      obtain ⟨table, -, after⟩ := after.table
      exact after.enabled

/-- The switch and the table go together, whatever step is taken. -/
theorem switched_step (switched : s.service.Switched) (st : Step) :
    (s.step f st).2.service.Switched := by
  cases tableStep f switched st with
  | same quiet enabled after =>
      rw [Service.Switched, enabled, after]
      exact switched
  | created quiet before after => exact after.switched
  | committed i m c commits after =>
      obtain ⟨table, -, after⟩ := after.table
      exact after.switched

end Session

end ArenaPeak
