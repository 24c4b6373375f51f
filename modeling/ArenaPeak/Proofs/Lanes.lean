import ArenaPeak.Proofs.Compilation
import ArenaPeak.Proofs.Ledger
import ArenaPeak.Proofs.Threads

/-!
What a run shows of one thread. Serial numbers depend on what was interned before, so methods of
different runs are compared by their texts and by the places they are from. Seen like that, and as
long as the service is on, the answer to a step, what it commits and what it prints are up to the
thread that takes it, whatever the other threads have done.
-/

namespace ArenaPeak

open Session (Answer Failure)

namespace Method

/-- The method without the serial numbers of its symbols. -/
def plain (m : Method) : Method :=
  .named m.texts

end Method

namespace CompileTask

def plain (t : CompileTask) : CompileTask :=
  { t with method := t.method.plain }

@[simp]
theorem plain_nodeSource (t : CompileTask) : t.plain.nodeSource = t.nodeSource :=
  rfl

end CompileTask

namespace Context

def plain (c : Context) : Context :=
  { c with task := c.task.map (·.plain) }

theorem account_plain (f : Flavour) (c : Context) (delta : Int64) (tag : ArenaTag) :
    c.plain.account f delta tag = (c.account f delta tag).map fun r => (r.1, r.2.plain) := by
  have live : c.plain.task.bind (·.nodeSource) = c.task.bind (·.nodeSource) := by
    simp [plain, Option.bind_map, Function.comp_def]
  rw [account, account, live]
  change (c.counter.account f delta tag _ >>= _) = _
  cases c.counter.account f delta tag (c.task.bind (·.nodeSource)) <;> rfl

end Context

def StatRecord.plain (r : StatRecord) : StatRecord :=
  { r with method := r.method.plain }

def Session.Answer.plain : Answer → Answer
  | .task t => .task (t.map (·.plain))
  | .found r permanent => .found (r.map (·.plain)) permanent
  | a => a

namespace Service

variable {f : Flavour} {s s' : Service} {c : Context}

theorem start_plain (on : s.enabled = s'.enabled) (c : Context) :
    s'.start f c.plain = (s.start f c).map (·.plain) := by
  rw [start, start, on]
  cases f.assert s'.enabled .notEnabled with
  | error v => rfl
  | ok _ => cases s'.enabled <;> rfl

theorem arena_plain (on : s.enabled = s'.enabled) (c : Context) (delta : Int64) (tag : ArenaTag) :
    s'.arena f c.plain delta tag =
      (s.arena f c delta tag).map fun r => (r.1, r.2.plain) := by
  rw [arena, arena, on, Context.account_plain]
  cases f.assert s'.enabled .notEnabled with
  | error v => rfl
  | ok _ => cases s'.enabled <;> rfl

theorem refusal?_plain (on : s.enabled = s'.enabled) (c : Context) :
    s'.refusal? f c.plain = s.refusal? f c := by
  obtain ⟨thread, counter, task⟩ := c
  rw [refusal?, refusal?, on]
  cases task <;> rfl

end Service

namespace Guard

variable {f : Flavour} {s s' : Service}

theorem tracks_plain (on : s.enabled = s'.enabled) (c : Context) :
    tracks s' c.plain = tracks s c := by
  rw [tracks, tracks, on, Context.plain, Option.any_map]
  rfl

theorem arena_plain (on : s.enabled = s'.enabled) (c : Context) (delta : Int64) (tag : ArenaTag) :
    arena f s' c.plain delta tag = (arena f s c delta tag).map fun r => (r.1, r.2.plain) := by
  rw [arena, arena, on, Service.arena_plain on]
  cases s'.enabled <;> rfl

end Guard

namespace Worker

def plain (w : Worker) : Worker :=
  { w with context := w.context.plain }

/-- An answer and a thread without serial numbers. -/
def plainly (r : Except Failure Answer × Worker) : Except Failure Answer × Worker :=
  (r.1.map (·.plain), r.2.plain)

variable {f : Flavour} {s s' : Service} {w : Worker}

theorem drop_plain (on : s.enabled = s'.enabled) (g : Guard) {answer : Except Failure Answer}
    (shown : answer.map (·.plain) = answer) :
    w.plain.drop f s' g answer = plainly (w.drop f s g answer) := by
  rw [drop, drop, plain, Service.refusal?_plain on]
  cases (if g.active = true then s.refusal? f w.context else none) with
  | none => exact Prod.ext shown.symm rfl
  | some v => rfl

/-- Without serial numbers, what a thread does does not depend on them. -/
theorem respond_plain {intern : Nat → MethodName → Method}
    (texts : ∀ table name, (intern table name).texts = name) (on : s.enabled = s'.enabled)
    (w : Worker) (st : Session.Step) :
    w.plain.respond f s' (fun _ => .named) st = plainly (w.respond f s intern st) := by
  obtain ⟨c, guard⟩ := w
  cases st with
  | setTask i table name kind directive live =>
      cases guard with
      | none =>
          have method : (intern table name).plain = .named name := congrArg Method.named (texts _ _)
          simp only [respond, whenFree, plainly, plain, Context.plain, Context.setTask,
            Option.map_some, CompileTask.plain, method]
          rfl
      | some g => rfl
  | setLive i n =>
      refine Prod.ext rfl ?_
      simp only [respond, plainly, plain, Context.plain, Context.setLive, Option.map_map]
      rfl
  | start i =>
      cases guard with
      | none =>
          simp only [respond, whenFree, plain, Service.start_plain on]
          cases s.start f c <;> rfl
      | some g => rfl
  | arena i delta tag =>
      cases guard with
      | none =>
          simp only [respond, plain, Service.arena_plain on]
          cases s.arena f c delta tag <;> rfl
      | some g =>
          simp only [respond, plain, Guard.arena_plain on]
          cases Guard.arena f s c delta tag <;> rfl
  | finish i time =>
      cases guard with
      | none =>
          simp only [respond, whenFree, plain, Service.refusal?_plain on]
          cases s.refusal? f c <;> rfl
      | some g => rfl
  | enter i =>
      cases guard with
      | none =>
          simp only [respond, whenFree, plain, Guard.enter_eq, Guard.tracks_plain on]
          cases Guard.tracks s c <;> rfl
      | some g => rfl
  | close i time =>
      cases guard with
      | none => rfl
      | some g => exact drop_plain on g rfl
  | crash i time =>
      cases guard with
      | none => rfl
      | some g => exact drop_plain on g rfl
  | clearTask i => cases guard <;> rfl
  | _ => rfl

/-- The context of the compilation that a step of its own ends, and the time at which it does. -/
def ending? (w : Worker) : Session.Step → Option (Context × Seconds)
  | .finish _ time =>
      match w.guard with
      | none => some (w.context, time)
      | some _ => none
  | .close _ time | .crash _ time =>
      match w.guard with
      | none => none
      | some g => if g.active then some (w.context, time) else none
  | _ => none

theorem ending?_plain (w : Worker) (st : Session.Step) :
    w.plain.ending? st = (w.ending? st).map fun (c, time) => (c.plain, time) := by
  obtain ⟨c, guard⟩ := w
  cases st with
  | finish i time => cases guard <;> rfl
  | close i time | crash i time =>
      cases guard with
      | none => rfl
      | some g =>
          simp only [ending?, plain]
          split <;> rfl
  | _ => rfl

end Worker

/-- The output after a line, if there is one. -/
def InlineOutput.printed (o : InlineOutput) (line : Option String) : InlineOutput :=
  line.elim o o.print

namespace Service

variable {f : Flavour} {s s' : Service} {c : Context}

/-- The inline line that the end of a compilation prints. -/
def line? (f : Flavour) (s : Service) (c : Context) (time : Seconds) : Option String :=
  match s.commit? f c time, c.task with
  | some _, some t =>
      if t.directive.prints then some (inlineLine f t.kind t.method c.counter) else none
  | _, _ => none

theorem commit?_plain (on : s.enabled = s'.enabled) (c : Context) (time : Seconds) :
    s'.commit? f c.plain time = s.commit? f c time := by
  obtain ⟨thread, counter, task⟩ := c
  cases task with
  | none => rfl
  | some t =>
      simp only [commit?, Context.plain, Option.map_some, commitOf, on]
      rfl

theorem line?_plain (on : s.enabled = s'.enabled) (c : Context) (time : Seconds) :
    s'.line? f c.plain time = s.line? f c time := by
  rw [line?, line?, commit?_plain on]
  obtain ⟨thread, counter, task⟩ := c
  cases s.commit? f ⟨thread, counter, task⟩ time <;> cases task <;> rfl

end Service

namespace Session

variable {f : Flavour} {s : Session} {i : Nat} {w : Worker} {st : Step}

theorem ending?_eq (there : s.workers[i]? = some w) (own : st.thread = some i) :
    s.ending? st = (w.ending? st).map fun ended => (i, ended) := by
  obtain ⟨c, guard⟩ := w
  cases st with
  | finish j time =>
      cases own
      cases guard <;> simp [ending?, Worker.ending?, there]
  | close j time | crash j time =>
      cases own
      cases guard with
      | none => simp [ending?, Worker.ending?, there]
      | some g => cases active : g.active <;> simp [ending?, Worker.ending?, there, active]
  | _ => rfl

/-- What the end of a compilation, if there is one, does to the service. -/
inductive ServiceStep (f : Flavour) (s s' : Service) (ended? : Option (Context × Seconds)) : Prop
  | kept (quiet : ∀ c time, ended? = some (c, time) → s.commit? f c time = none) (after : s' = s)
  | committed (c : Context) (time : Seconds) (table : StatTable) (t : CompileTask)
      (ends : ended? = some (c, time)) (task : c.task = some t)
      (commits : s.commit? f c time = some (Service.commitOf c t time))
      (after : s' = s.commit f table c t time)

theorem ServiceStep.idle {s s' : Service} (after : s' = s) : ServiceStep f s s' none := by
  refine .kept ?_ after
  intro c time same
  cases same

/-- The end of a compilation commits, or leaves the service as it was. -/
theorem ServiceStep.ended {s s' : Service} (switched : s.Switched) (symbols : SymbolStore)
    (c : Context) (time : Seconds)
    (after : s' = match s.finish f symbols c time with
      | .ok r => r.1
      | .error _ => s) :
    ServiceStep f s s' (some (c, time)) := by
  subst after
  cases Service.finish_cases f switched symbols c time with
  | inl idle =>
      obtain ⟨quiet, idle⟩ := idle
      refine .kept (fun c' time' same => by cases same; exact quiet) ?_
      cases run : s.finish f symbols c time with
      | error v => rfl
      | ok r => exact (idle r.1 r.2 run).1
  | inr active =>
      obtain ⟨table, t, on, task, commits, run⟩ := active
      rw [run]
      exact .committed c time table t rfl task commits rfl

/-- A hook on a thread leaves the service alone. -/
theorem service_outcome {α : Type} (s : Session) (i : Nat) (x : Except Violation α)
    (answer : α → Answer) (w' : α → Worker) :
    (s.outcome (x >>= fun a => .ok (answer a, s.putWorker i (w' a)))).2.service = s.service := by
  cases x <;> rfl

theorem serviceStep_dropped (f : Flavour) (switched : s.service.Switched) {g : Guard}
    (there : s.workers[i]? = some w) (opened : w.guard = some g) (time : Seconds) :
    ServiceStep f s.service (s.dropped f i time).service
      (if g.active then some (w.context, time) else none) := by
  simp only [dropped, there, opened, dropGuard, Guard.drop]
  cases active : g.active with
  | false => exact .idle rfl
  | true =>
      simp only [if_true]
      refine .ended switched s.symbols w.context time ?_
      cases s.service.finish f s.symbols w.context time <;> rfl

/-- A step of a thread changes the service only by what it commits. -/
theorem serviceStep (switched : s.service.Switched) (there : s.workers[i]? = some w)
    (own : st.thread = some i) :
    ServiceStep f s.service (s.step f st).2.service (w.ending? st) := by
  have bare (step : Worker → Except Failure Answer × Session)
      (same : (step w).2.service = s.service) :
      ServiceStep f s.service (s.withWorker i step).2.service none := by
    rw [withWorker, there]
    exact .idle same
  obtain ⟨c, guard⟩ := w
  cases st with
  | finish j time =>
      cases own
      cases guard with
      | none =>
          simp only [step, withContext, withWorker, there]
          refine .ended switched s.symbols c time ?_
          cases s.service.finish f s.symbols c time <;> rfl
      | some g =>
          simp only [step, withContext, withWorker, there]
          exact .idle rfl
  | close j time =>
      cases own
      rw [step_close]
      cases guard with
      | none => exact .idle (by simp [dropped, there])
      | some g => exact serviceStep_dropped f switched there rfl time
  | crash j time =>
      cases own
      rw [step_crash]
      cases guard with
      | none => exact .idle (by simp [dropped, there])
      | some g => exact serviceStep_dropped f switched there rfl time
  | setTask j table name kind directive live =>
      cases own
      refine bare _ ?_
      cases guard <;> rfl
  | clearTask j =>
      cases own
      refine bare _ ?_
      cases guard <;> rfl
  | start j =>
      cases own
      refine bare _ ?_
      cases guard with
      | none => exact service_outcome s i (s.service.start f c) (fun _ => .done) fun c => ⟨c, none⟩
      | some g => rfl
  | enter j =>
      cases own
      refine bare _ ?_
      cases guard with
      | none =>
          exact service_outcome s i (Guard.enter f s.service c) (fun r => .flag r.1.active)
            fun r => ⟨r.2, some r.1⟩
      | some g => rfl
  | arena j delta tag =>
      cases own
      refine bare _ ?_
      cases guard with
      | none =>
          exact service_outcome s i (s.service.arena f c delta tag) (fun r => .flag r.1)
            fun r => ⟨r.2, none⟩
      | some g =>
          exact service_outcome s i (Guard.arena f s.service c delta tag) (fun r => .flag r.1)
            fun r => ⟨r.2, some g⟩
  | task j | setLive j n =>
      cases own
      exact bare _ rfl
  | _ => cases own

/-- The inline line that a step prints. -/
def line? (f : Flavour) (s : Session) (st : Step) : Option String :=
  (s.ending? st).bind fun (_, c, time) => s.service.line? f c time

/-- The output grows by what a step prints. -/
theorem inline_step (switched : s.service.Switched) (there : s.workers[i]? = some w)
    (own : st.thread = some i) :
    (s.step f st).2.service.inline = s.service.inline.printed (s.line? f st) := by
  rw [line?, ending?_eq there own]
  cases serviceStep (f := f) switched there own with
  | kept quiet after =>
      rw [after]
      cases ends : w.ending? st with
      | none => rfl
      | some ended => simp [Service.line?, quiet ended.1 ended.2 ends, InlineOutput.printed]
  | committed c time table t ends task commits after =>
      rw [after, ends]
      simp only [Option.map_some, Option.bind_some, Service.line?, commits, task, Service.commit]
      split <;> rfl

/-- Threads do not touch the switch. -/
theorem enabled_step_own (switched : s.service.Switched) (own : st.thread = some i) :
    (s.step f st).2.service.enabled = s.service.enabled := by
  cases there : s.workers[i]? with
  | none => rw [step_noWorker there own]
  | some w =>
      cases serviceStep (f := f) switched there own with
      | kept quiet after => rw [after]
      | committed c time table t ends task commits after =>
          rw [after]
          rfl

end Session

namespace Ledger

/-- What is shown of a step: the answer, the commit if there is one, and what is printed. -/
structure Report where
  answer : Except Failure Answer
  commit : Option (Option Place × Commit)
  line : Option String

def report (f : Flavour) (L : Ledger) (st : Session.Step) : Report :=
  ⟨(L.session.step f st).1.map (·.plain),
    (L.session.commit? f st).map fun (i, c) => (L.origins i, c),
    L.session.line? f st⟩

/-- What is shown of a thread: its state, and where the method of its task is from. -/
structure Lane where
  worker : Worker
  origin : Option Place

def lane (L : Ledger) (i : Nat) : Option Lane :=
  (L.session.workers[i]?).map fun w => ⟨w.plain, L.origins i⟩

/-- Where the method of a thread's task is from after a step of its own. -/
def originFrom (st : Session.Step) (answer : Except Failure Answer) (before : Option Place) :
    Option Place :=
  match st, answer with
  | .setTask _ table name _ _ _, .ok _ => some ⟨table, name⟩
  | .clearTask _, .ok _ => none
  | _, _ => before

namespace Lane

/-- The answer to a step and the thread after it, while a service is as this one. -/
def respond (f : Flavour) (s : Service) (l : Lane) (st : Session.Step) :
    Except Failure Answer × Worker :=
  l.worker.respond f s (fun _ => .named) st

def report (f : Flavour) (s : Service) (l : Lane) (st : Session.Step) : Report :=
  ⟨(l.respond f s st).1,
    (l.worker.ending? st).bind fun (c, time) =>
      (s.commit? f c time).map fun commit => (l.origin, commit),
    (l.worker.ending? st).bind fun (c, time) => s.line? f c time⟩

def next (f : Flavour) (s : Service) (l : Lane) (st : Session.Step) : Lane :=
  ⟨(l.respond f s st).2, originFrom st (l.respond f s st).1 l.origin⟩

end Lane

variable {f : Flavour} {L : Ledger} {s : Service} {i : Nat} {w : Worker} {st : Session.Step}

theorem originsAfter_eq (own : st.thread = some i) :
    L.originsAfter f st =
      Function.update L.origins i (originFrom st (L.session.step f st).1 (L.origins i)) := by
  have unchanged : L.origins = Function.update L.origins i (L.origins i) :=
    (Function.update_eq_self _ _).symm
  cases st with
  | setTask j table name kind directive live =>
      cases own
      simp only [originsAfter, originFrom]
      cases (L.session.step f (.setTask i table name kind directive live)).1 with
      | error e => exact unchanged
      | ok a => rfl
  | clearTask j =>
      cases own
      simp only [originsAfter, originFrom]
      cases (L.session.step f (.clearTask i)).1 with
      | error e => exact unchanged
      | ok a => rfl
  | _ => exact unchanged

theorem originFrom_map (st : Session.Step) (answer : Except Failure Answer)
    (before : Option Place) :
    originFrom st (answer.map (·.plain)) before = originFrom st answer before := by
  cases st <;> cases answer <;> rfl

theorem respond_lane (switched : L.session.service.Switched)
    (on : L.session.service.enabled = s.enabled) (there : L.session.workers[i]? = some w)
    (own : st.thread = some i) :
    Lane.respond f s ⟨w.plain, L.origins i⟩ st =
      ((L.session.step f st).1.map (·.plain),
        (w.respond f L.session.service L.session.interned st).2.plain) := by
  have texts (table : Nat) (name : MethodName) : (L.session.interned table name).texts = name :=
    SymbolStore.internMethod_texts _ _ _ _
  rw [Lane.respond, Worker.respond_plain texts on,
    (Session.yields_step switched there own).1]
  rfl

/-- What is shown of a step, and of its thread after it, is up to the thread. -/
theorem step_lane (switched : L.session.service.Switched)
    (on : L.session.service.enabled = s.enabled) (there : L.session.workers[i]? = some w)
    (own : st.thread = some i) :
    L.report f st = Lane.report f s ⟨w.plain, L.origins i⟩ st ∧
      (L.step f st).lane i = some (Lane.next f s ⟨w.plain, L.origins i⟩ st) := by
  constructor
  · rw [report, Lane.report, respond_lane switched on there own, Session.commit?, Session.line?,
      Session.ending?_eq there own, Worker.ending?_plain]
    cases w.ending? st with
    | none => rfl
    | some ended =>
        simp only [Option.map_some, Option.bind_some, Option.map_map,
          Service.commit?_plain on, Service.line?_plain on]
        rfl
  · rw [lane, step, Session.worker_step switched there own, Option.map_some, Lane.next,
      respond_lane switched on there own, originsAfter_eq own]
    simp only [Function.update_self, originFrom_map]

/-- A step of one thread does not show on another. -/
theorem lane_step_of_ne (switched : L.session.service.Switched) (own : st.thread = some i) {j : Nat}
    (other : j ≠ i) :
    (L.step f st).lane j = L.lane j := by
  simp only [lane, step, originsAfter_eq own, Function.update_of_ne other]
  cases there : L.session.workers[i]? with
  | none => rw [Session.step_noWorker there own]
  | some w => rw [(Session.yields_step switched there own).2, List.getElem?_set_ne other.symm]

/-- What is shown of the step of a thread that is not there. -/
def Report.absent : Report :=
  ⟨.error .noWorker, none, none⟩

theorem step_absent (gone : L.session.workers[i]? = none) (own : st.thread = some i) :
    L.report f st = .absent ∧ (L.step f st).session = L.session ∧ (L.step f st).lane i = none := by
  have ending : L.session.ending? st = none := by
    cases st with
    | finish j time | close j time | crash j time =>
        cases own
        simp [Session.ending?, gone]
    | _ => rfl
  refine ⟨?_, ?_, ?_⟩
  · rw [report, Session.step_noWorker gone own, Session.commit?, Session.line?, ending]
    rfl
  · rw [step, Session.step_noWorker gone own]
  · rw [lane, step, Session.step_noWorker gone own, gone]
    rfl

/-! ### Whole runs -/

/-- What is shown of a run, with the thread that takes each step. -/
def reports (f : Flavour) (L : Ledger) : List Session.Step → List (Option Nat × Report)
  | [] => []
  | st :: rest => (st.thread, L.report f st) :: reports f (L.step f st) rest

/-- What is shown of a thread that takes its steps alone, and the thread after them. -/
def solo (f : Flavour) (s : Service) : Option Lane → List Session.Step → List Report × Option Lane
  | l?, [] => ([], l?)
  | none, _ :: rest =>
      let (rs, l?) := solo f s none rest
      (.absent :: rs, l?)
  | some l, st :: rest =>
      let (rs, l?) := solo f s (some (l.next f s st)) rest
      (l.report f s st :: rs, l?)

/-- In a run of any threads, each does what it does alone. -/
theorem solo_eq (switched : L.session.service.Switched)
    (on : L.session.service.enabled = s.enabled) {steps : List Session.Step}
    (owned : ∀ st ∈ steps, st.thread.isSome = true) (i : Nat) :
    solo f s (L.lane i) (steps.filter (·.thread == some i)) =
      (((L.reports f steps).filter (·.1 == some i)).map (·.2),
        (steps.foldl (step f) L).lane i) := by
  induction steps generalizing L with
  | nil => rfl
  | cons st steps ih =>
      rw [List.forall_mem_cons] at owned
      obtain ⟨j, own⟩ := Option.isSome_iff_exists.mp owned.1
      have like := Session.enabled_step_own (f := f) (s := L.session) switched own
      have rest := ih (L := L.step f st) (Session.switched_step switched st) (like.trans on) owned.2
      rw [List.foldl_cons, reports]
      by_cases mine : j = i
      · subst mine
        rw [List.filter_cons_of_pos (by simp [own]), List.filter_cons_of_pos (by simp [own])]
        cases there : L.session.workers[j]? with
        | none =>
            obtain ⟨shown, -, gone⟩ := step_absent (f := f) there own
            have nothing : L.lane j = none := by rw [lane, there]; rfl
            rw [gone] at rest
            rw [nothing, solo, rest, List.map_cons, shown]
        | some w =>
            obtain ⟨shown, after⟩ := step_lane (f := f) switched on there own
            have now : L.lane j = some ⟨w.plain, L.origins j⟩ := by rw [lane, there]; rfl
            rw [after] at rest
            rw [now, solo, rest, List.map_cons, shown]
      · rw [List.filter_cons_of_neg (by simpa [own] using mine),
          List.filter_cons_of_neg (by simpa [own] using mine),
          ← lane_step_of_ne (f := f) switched own (Ne.symm mine), rest]

end Ledger

end ArenaPeak
