import ArenaPeak.Proofs.SessionSteps

/-!
What a step of its own does to a thread. The answer to such a step and the thread after it depend on
the thread, on whether the service is on, and on the method that a new task is given, and on nothing
else in the session; a step of another thread leaves it as it is.
-/

namespace ArenaPeak

namespace Service

/-- Why the end of a compilation is refused, if it is. -/
def refusal? (f : Flavour) (s : Service) (c : Context) : Option Violation :=
  if !f.checks then none
  else if !s.enabled then some .notEnabled
  else
    match c.task with
    | none => some .endWithoutTask
    | some t => if t.directive.collects then none else some .endWithoutTracking

/-- The end of a compilation fails exactly when it is refused. -/
theorem finish_of_refusal (f : Flavour) {s : Service} (switched : s.Switched)
    (symbols : SymbolStore) (c : Context) (time : Seconds) :
    match s.refusal? f c with
    | none => ∃ s' symbols', s.finish f symbols c time = .ok (s', symbols')
    | some v => s.finish f symbols c time = .error v := by
  cases switched.cases with
  | inl off =>
      cases f <;>
        simp [refusal?, finish, off.enabled, off.table, Flavour.checks, Flavour.assert, bind,
          Except.bind, pure, Except.pure]
  | inr on =>
      obtain ⟨table, on⟩ := on
      obtain ⟨thread, counter, task⟩ := c
      cases f <;> cases task <;>
        simp [refusal?, finish, on.enabled, on.table, Flavour.checks, Flavour.assert, bind,
          Except.bind, pure, Except.pure]
      next t => cases t.directive.collects <;> simp

end Service

namespace Session

/-- The thread that a step is a step of. -/
def Step.thread : Step → Option Nat
  | .setTask i _ _ _ _ _ | .clearTask i | .task i | .setLive i _ | .start i | .arena i _ _
  | .finish i _ | .enter i | .close i _ | .crash i _ => some i
  | .enable | .newContext | .report _ _ _ _ | .views _ _ | .lookup _ _ | .hold _ _ | .release _
  | .liveCount _ | .purge _ => none

/-- The step drops the guard of a thread, by closing it or by a crash. -/
def Step.Leaves (st : Step) (i : Nat) : Prop :=
  (∃ time, st = .close i time) ∨ ∃ time, st = .crash i time

theorem Step.thread_of_leaves {st : Step} {i : Nat} (leaves : st.Leaves i) :
    st.thread = some i := by
  obtain ⟨time, rfl⟩ | ⟨time, rfl⟩ := leaves <;> rfl

end Session

namespace Worker

open Session (Answer Failure)

def whenFree (w : Worker) (step : Context → Except Failure Answer × Worker) :
    Except Failure Answer × Worker :=
  match w.guard with
  | none => step w.context
  | some _ => (.error .borrowed, w)

def outcome (w : Worker) (r : Except Violation (Answer × Worker)) :
    Except Failure Answer × Worker :=
  match r with
  | .ok (a, w) => (.ok a, w)
  | .error v => (.error (.violated v), w)

/-- Drops the guard, with an answer, unless that is refused. -/
def drop (f : Flavour) (s : Service) (w : Worker) (g : Guard) (answer : Except Failure Answer) :
    Except Failure Answer × Worker :=
  match if g.active then s.refusal? f w.context else none with
  | none => (answer, { w with guard := none })
  | some v => (.error (.violated v), w)

/-- The answer to a step of its own and the thread after it, where `intern` gives the method of a
new task. -/
def respond (f : Flavour) (s : Service) (intern : Nat → MethodName → Method) (w : Worker) :
    Session.Step → Except Failure Answer × Worker
  | .setTask _ table name kind directive live => w.whenFree fun c =>
      (.ok (.task c.task), ⟨c.setTask ⟨intern table name, kind, directive, live⟩, none⟩)
  | .clearTask _ => w.whenFree fun c => (.ok (.task c.task), ⟨c.clearTask, none⟩)
  | .task _ => (.ok (.task w.context.task), w)
  | .setLive _ n => (.ok .done, { w with context := w.context.setLive n })
  | .start _ => w.whenFree fun c => w.outcome do
      let c ← s.start f c
      return (.done, ⟨c, none⟩)
  | .arena _ delta tag => w.outcome do
      let (reached, c) ← match w.guard with
        | some _ => Guard.arena f s w.context delta tag
        | none => s.arena f w.context delta tag
      return (.flag reached, { w with context := c })
  | .finish _ _ => w.whenFree fun c =>
      match s.refusal? f c with
      | none => (.ok .done, w)
      | some v => (.error (.violated v), w)
  | .enter _ => w.whenFree fun c => w.outcome do
      let (g, c) ← Guard.enter f s c
      return (.flag g.active, ⟨c, some g⟩)
  | .close _ _ =>
      match w.guard with
      | none => (.ok (.flag false), w)
      | some g => w.drop f s g (.ok (.flag true))
  | .crash _ _ =>
      match w.guard with
      | none => (.error (.violated .crashed), w)
      | some g => w.drop f s g (.error (.violated .crashed))
  | _ => (.ok .done, w)

end Worker

namespace Session

/-- The method that a task set now is given. -/
def interned (s : Session) (table : Nat) (name : MethodName) : Method :=
  (s.symbols.internMethod s.held table name).1

variable {f : Flavour} {s : Session} {i : Nat} {w : Worker} {st : Step}

/-- What a step comes to for a thread of the session: the answer, and the thread in its place. -/
def Yields (s : Session) (i : Nat) (r : Except Failure Answer × Session)
    (r' : Except Failure Answer × Worker) : Prop :=
  r.1 = r'.1 ∧ r.2.workers = s.workers.set i r'.2

/-- A step that leaves the session alone. -/
theorem yields_refl (there : s.workers[i]? = some w) (a : Except Failure Answer) :
    s.Yields i (a, s) (a, w) := by
  obtain ⟨bound, eq⟩ := List.getElem?_eq_some_iff.mp there
  subst eq
  exact ⟨rfl, (List.set_getElem_self bound).symm⟩

theorem yields_whenFree (there : s.workers[i]? = some w)
    {step : Context → Except Failure Answer × Session}
    {step' : Context → Except Failure Answer × Worker}
    (same : ∀ c, w = ⟨c, none⟩ → s.Yields i (step c) (step' c)) :
    s.Yields i (s.withContext i step) (w.whenFree step') := by
  obtain ⟨c, guard⟩ := w
  simp only [withContext, withWorker, there, Worker.whenFree]
  cases guard with
  | none => exact same c rfl
  | some g => exact yields_refl there _

theorem yields_withWorker (there : s.workers[i]? = some w)
    {step : Worker → Except Failure Answer × Session} {r : Except Failure Answer × Worker}
    (same : s.Yields i (step w) r) : s.Yields i (s.withWorker i step) r := by
  simp only [withWorker, there]
  exact same

/-- A hook on a thread that goes through, or fails for the same reason. -/
theorem yields_outcome (there : s.workers[i]? = some w) {α : Type} {x : Except Violation α}
    (answer : α → Answer) (w' : α → Worker) :
    s.Yields i (s.outcome (x >>= fun a => .ok (answer a, s.putWorker i (w' a))))
      (w.outcome (x >>= fun a => .ok (answer a, w' a))) := by
  cases x with
  | error v => exact yields_refl there _
  | ok a => exact ⟨rfl, rfl⟩

/-- Dropping a guard fails exactly when that is refused, and else the thread is without it. -/
theorem dropGuard_of_refusal (f : Flavour) (switched : s.service.Switched) (i : Nat) (w : Worker)
    (g : Guard) (time : Seconds) :
    match if g.active then s.service.refusal? f w.context else none with
    | none => ∃ s', s.dropGuard f i w g time = .ok s' ∧
        s'.workers = s.workers.set i { w with guard := none }
    | some v => s.dropGuard f i w g time = .error v := by
  cases active : g.active with
  | false => exact ⟨_, by simp [dropGuard, Guard.drop, active, bind, Except.bind]; rfl, rfl⟩
  | true =>
      have finished := Service.finish_of_refusal f switched s.symbols w.context time
      simp only [if_true]
      cases refused : s.service.refusal? f w.context with
      | none =>
          rw [refused] at finished
          obtain ⟨service, symbols, run⟩ := finished
          exact ⟨_, by simp [dropGuard, Guard.drop, active, run, bind, Except.bind]; rfl, rfl⟩
      | some v =>
          rw [refused] at finished
          simp only [dropGuard, Guard.drop, active, if_true]
          simp only at finished
          rw [finished]
          rfl

theorem yields_drop (switched : s.service.Switched) (there : s.workers[i]? = some w) (g : Guard)
    (time : Seconds) {answer : Except Failure Answer} {r : Except Failure Answer × Session}
    (goes : ∀ s', s.dropGuard f i w g time = .ok s' → r = (answer, s'))
    (fails : ∀ v, s.dropGuard f i w g time = .error v → r = (.error (.violated v), s)) :
    s.Yields i r (w.drop f s.service g answer) := by
  have run := dropGuard_of_refusal f switched i w g time
  rw [Worker.drop]
  cases refused : if g.active then s.service.refusal? f w.context else none with
  | none =>
      rw [refused] at run
      obtain ⟨s', run, workers⟩ := run
      rw [goes s' run]
      exact ⟨rfl, workers⟩
  | some v =>
      rw [refused] at run
      rw [fails v run]
      exact yields_refl there _

/-- A step of its own is answered, and changes the thread, as the thread responds to it; all other
threads stay. -/
theorem yields_step (switched : s.service.Switched) (there : s.workers[i]? = some w)
    (own : st.thread = some i) :
    s.Yields i (s.step f st) (w.respond f s.service s.interned st) := by
  cases st with
  | setTask j table name kind directive live =>
      cases own
      exact yields_whenFree there fun c free => ⟨rfl, rfl⟩
  | clearTask j =>
      cases own
      exact yields_whenFree there fun c free => ⟨rfl, rfl⟩
  | task j =>
      cases own
      exact yields_withWorker there (yields_refl there _)
  | setLive j n =>
      cases own
      exact yields_withWorker there ⟨rfl, rfl⟩
  | start j =>
      cases own
      exact yields_whenFree there fun c free => yields_outcome there (fun _ => .done) _
  | arena j delta tag =>
      cases own
      obtain ⟨c, guard⟩ := w
      refine yields_withWorker there ?_
      cases guard with
      | none | some g =>
          exact yields_outcome there (fun a : Bool × Context => .flag a.1) fun a => ⟨a.2, _⟩
  | finish j time =>
      cases own
      refine yields_whenFree there fun c free => ?_
      have finished := Service.finish_of_refusal f switched s.symbols c time
      cases refused : s.service.refusal? f c with
      | none =>
          rw [refused] at finished
          obtain ⟨service, symbols, run⟩ := finished
          simp only [run]
          exact yields_refl there _
      | some v =>
          rw [refused] at finished
          simp only at finished
          simp only [finished]
          exact yields_refl there _
  | enter j =>
      cases own
      exact yields_whenFree there fun c free =>
        yields_outcome there (fun a : Guard × Context => .flag a.1.active) fun a => ⟨a.2, some a.1⟩
  | close j time =>
      cases own
      obtain ⟨c, guard⟩ := w
      refine yields_withWorker there ?_
      cases guard with
      | none => exact yields_refl there _
      | some g =>
          refine yields_drop switched there g time (fun s' run => ?_) fun v run => ?_
          · simp only [run]
            rfl
          · simp only [run]
            rfl
  | crash j time =>
      cases own
      obtain ⟨c, guard⟩ := w
      refine yields_withWorker there ?_
      cases guard with
      | none => exact yields_refl there _
      | some g =>
          refine yields_drop switched there g time (fun s' run => ?_) fun v run => ?_
          · simp only [run]
          · simp only [run]
  | _ => cases own

theorem step_noWorker (gone : s.workers[i]? = none) (own : st.thread = some i) :
    s.step f st = (.error .noWorker, s) := by
  have failed (step : Worker → Except Failure Answer × Session) :
      s.withWorker i step = (.error .noWorker, s) := by rw [withWorker, gone]
  cases st <;> cases own <;> exact failed _

/-- A step of no thread leaves all threads as they are, and at most adds one. -/
theorem workers_step_shared (f : Flavour) (s : Session) (shared : st.thread = none) :
    (s.step f st).2.workers = s.workers ∨
      ∃ id, (s.step f st).2.workers = s.workers ++ [⟨.new id, none⟩] := by
  cases st with
  | newContext => exact .inr ⟨_, rfl⟩
  | enable =>
      refine .inl ?_
      simp only [step]
      cases s.service.enable <;> rfl
  | report order human minSize limit =>
      rw [step_report]
      exact .inl rfl
  | views order minSize =>
      rw [step_views]
      exact .inl rfl
  | lookup | hold | release | liveCount | purge => exact .inl rfl
  | _ => cases shared

/-- The thread that takes a step, after it. -/
theorem worker_step (switched : s.service.Switched) (there : s.workers[i]? = some w)
    (own : st.thread = some i) :
    (s.step f st).2.workers[i]? = some (w.respond f s.service s.interned st).2 := by
  rw [(yields_step switched there own).2,
    List.getElem?_set_self (List.getElem?_eq_some_iff.mp there).1]

/-- Any other thread, after a step. -/
theorem worker_step_of_ne (switched : s.service.Switched) (there : s.workers[i]? = some w)
    (other : st.thread ≠ some i) :
    (s.step f st).2.workers[i]? = some w := by
  cases own : st.thread with
  | none =>
      cases workers_step_shared f s own with
      | inl same => rw [same, there]
      | inr more =>
          obtain ⟨id, more⟩ := more
          rw [more, List.getElem?_append_left (List.getElem?_eq_some_iff.mp there).1, there]
  | some j =>
      cases there' : s.workers[j]? with
      | none => rw [step_noWorker there' own, there]
      | some w' =>
          rw [(yields_step switched there' own).2, List.getElem?_set_ne, there]
          rintro rfl
          exact other own

/-- Where a thread comes from that is there after a step. -/
inductive Origin (f : Flavour) (s : Session) (st : Step) (i : Nat) (w' : Worker) : Prop
  | stayed (other : st.thread ≠ some i) (there : s.workers[i]? = some w')
  | stepped (w : Worker) (own : st.thread = some i) (there : s.workers[i]? = some w)
      (after : w' = (w.respond f s.service s.interned st).2)
  | joined (id : ThreadId) (new : w' = ⟨.new id, none⟩)

theorem origin_step (switched : s.service.Switched) {w' : Worker}
    (there' : (s.step f st).2.workers[i]? = some w') :
    s.Origin f st i w' := by
  cases there : s.workers[i]? with
  | some w =>
      by_cases own : st.thread = some i
      · rw [worker_step switched there own] at there'
        exact .stepped w own there (Option.some.inj there').symm
      · rw [worker_step_of_ne switched there own, ← there] at there'
        exact .stayed own there'
  | none =>
      cases own : st.thread with
      | none =>
          cases workers_step_shared f s own with
          | inl same =>
              rw [same, there] at there'
              cases there'
          | inr more =>
              obtain ⟨id, more⟩ := more
              have absent := List.getElem?_eq_none_iff.mp there
              rw [more, List.getElem?_append_right absent] at there'
              exact .joined id (List.mem_singleton.mp (List.mem_of_getElem? there'))
      | some j =>
          cases there'' : s.workers[j]? with
          | none =>
              rw [step_noWorker there'' own, there] at there'
              cases there'
          | some w =>
              have absent :
                  (s.workers.set j (w.respond f s.service s.interned st).2)[i]? = none := by
                rw [List.getElem?_eq_none_iff, List.length_set]
                exact List.getElem?_eq_none_iff.mp there
              rw [(yields_step switched there'' own).2, absent] at there'
              cases there'

end Session

end ArenaPeak
