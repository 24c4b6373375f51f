import ArenaPeak.Proofs.Ledger
import ArenaPeak.Proofs.Threads
import Mathlib.Algebra.GroupWithZero.Nat

/-!
The guards of a session. Whether a guard is active is settled when it is opened, and while it is
open its thread keeps its task and the service stays on, so an active guard always has something to
commit when it is dropped, on whatever way out. The records count these commits and those of the
compilations that are ended by hand, and no others.
-/

namespace ArenaPeak

namespace StatTable

/-- All commits there have been, as far as the records count them. -/
def recompilations (t : StatTable) : Nat :=
  (t.records.map (·.recompilations.toNat)).sum

/-- A commit is counted once, as long as the counter of its record has room. -/
theorem recompilations_upsert (t : StatTable) (m : Method) (c : Commit)
    (room : ∀ r, t.get? m = some r → r.recompilations.toNat + 1 < 2 ^ 32) :
    (t.upsert m c).recompilations = t.recompilations + 1 := by
  obtain ⟨rs⟩ := t
  simp only [recompilations, upsert, get?] at room ⊢
  induction rs with
  | nil => rfl
  | cons r rs ih =>
      by_cases same : r.method.same m = true
      · have counted : (r.recompilations + 1).toNat = r.recompilations.toNat + 1 := by
          rw [UInt32.toNat_add]
          exact Nat.mod_eq_of_lt (room r (by simp [same]))
        simp only [upsertIn, same, if_true, StatRecord.apply, List.map_cons, List.sum_cons, counted]
        omega
      · have rest := ih fun r' found => room r' (by simpa [same] using found)
        simp only [upsertIn, same, Bool.false_eq_true, if_false, List.map_cons, List.sum_cons, rest]
        omega

end StatTable

theorem Guard.tracks_iff {s : Service} {c : Context} :
    Guard.tracks s c = true ↔
      s.enabled = true ∧ ∃ t, c.task = some t ∧ t.directive.collects = true := by
  rw [Guard.tracks, Bool.and_eq_true, Option.any_eq_true]

namespace Service

def recompilations (s : Service) : Nat :=
  match s.table with
  | some t => t.recompilations
  | none => 0

variable {f : Flavour} {s : Service} {c : Context}

/-- The end of a tracked compilation is not refused. -/
theorem refusal?_of_tracks (tracked : Guard.tracks s c = true) : s.refusal? f c = none := by
  obtain ⟨on, t, task, collects⟩ := Guard.tracks_iff.mp tracked
  simp [refusal?, on, task, collects]

/-- What is not refused commits if the service is on and there is a task. -/
theorem commit?_isSome (f : Flavour) (s : Service) (c : Context) (time : Seconds) :
    (s.commit? f c time).isSome = (s.enabled && c.task.isSome && (s.refusal? f c).isNone) := by
  obtain ⟨thread, counter, task⟩ := c
  cases task with
  | none => simp [commit?]
  | some t =>
      cases on : s.enabled <;> cases collects : t.directive.collects <;> cases f <;>
        simp [commit?, refusal?, on, collects, Flavour.checks]

end Service

namespace Worker

open Session (Answer Failure)

variable {f : Flavour} {s : Service} {intern : Nat → MethodName → Method} {w : Worker} {g : Guard}
variable {st : Session.Step}

/-- The task of a thread, but for what its source of live nodes reads. -/
def label (w : Worker) : Option CompileTask :=
  w.context.task.map fun t => { t with live := none }

/-- What is tracked stays so while the thread keeps its task and the service is on. -/
theorem tracks_of_label {w' : Worker} {s' : Service} (tracked : Guard.tracks s w.context = true)
    (label : w'.label = w.label) (on : s'.enabled = true) :
    Guard.tracks s' w'.context = true := by
  have collects := congrArg (Option.any (·.directive.collects)) label
  simp only [Worker.label, Option.any_map] at collects
  rw [Guard.tracks, Bool.and_eq_true] at tracked ⊢
  exact ⟨on, collects.trans tracked.2⟩

/-- A borrowed thread keeps its guard and its task until the guard is dropped. -/
theorem respond_borrowed (opened : w.guard = some g)
    (keeps : ∀ i, ¬ st.Leaves i) :
    (w.respond f s intern st).2.guard = some g ∧ (w.respond f s intern st).2.label = w.label := by
  obtain ⟨c, guard⟩ := w
  cases opened
  cases st with
  | close i time => exact absurd (.inl ⟨time, rfl⟩) (keeps i)
  | crash i time => exact absurd (.inr ⟨time, rfl⟩) (keeps i)
  | setLive i n =>
      refine ⟨rfl, ?_⟩
      simp [respond, label, Context.setLive, CompileTask.setLive, Function.comp_def]
  | arena i delta tag =>
      simp only [respond]
      cases run : Guard.arena f s c delta tag with
      | error v => exact ⟨rfl, rfl⟩
      | ok counted => exact ⟨rfl, congrArg (Option.map _) (Guard.arena_task run)⟩
  | _ => exact ⟨rfl, rfl⟩

/-- A thread without a guard stays without, unless it opens one. -/
theorem respond_free (free : w.guard = none) (other : ∀ i, st ≠ .enter i) :
    (w.respond f s intern st).2.guard = none := by
  obtain ⟨c, guard⟩ := w
  cases free
  cases st with
  | enter i => exact absurd rfl (other i)
  | start i =>
      simp only [respond, whenFree]
      cases s.start f c <;> rfl
  | arena i delta tag =>
      simp only [respond]
      cases s.arena f c delta tag <;> rfl
  | finish i time =>
      simp only [respond, whenFree]
      split <;> rfl
  | _ => rfl

theorem respond_enter (c : Context) (i : Nat) :
    respond f s intern ⟨c, none⟩ (.enter i) =
      (.ok (.flag (Guard.tracks s c)),
        ⟨if Guard.tracks s c then c.startEpisode else c, some ⟨Guard.tracks s c⟩⟩) := by
  simp only [respond, whenFree, Guard.enter_eq]
  rfl

/-- Dropping a guard is never refused as long as an active one is on a tracked compilation. -/
theorem drop_eq (armed : g.active = true → Guard.tracks s w.context = true)
    (answer : Except Failure Answer) :
    w.drop f s g answer = (answer, { w with guard := none }) := by
  rw [drop]
  by_cases active : g.active = true
  · rw [if_pos active, Service.refusal?_of_tracks (armed active)]
  · rw [if_neg active]

/-- What a step of its own does to the guard of a thread. -/
inductive GuardStep (s : Service) (i : Nat) (st : Session.Step) (w w' : Worker) : Prop
  | free (other : st ≠ .enter i) (before : w.guard = none) (after : w'.guard = none)
  | entered (enters : st = .enter i) (before : w.guard = none)
      (after : w'.guard = some ⟨Guard.tracks s w.context⟩) (label : w'.label = w.label)
  | borrowed (g : Guard) (keeps : ¬ st.Leaves i) (before : w.guard = some g)
      (after : w'.guard = some g) (label : w'.label = w.label)
  | dropped (g : Guard) (leaves : st.Leaves i) (before : w.guard = some g)
      (after : w' = { w with guard := none })

theorem guardStep_respond (f : Flavour) (intern : Nat → MethodName → Method) {i : Nat}
    (own : st.thread = some i)
    (armed : ∀ g, w.guard = some g → g.active = true → Guard.tracks s w.context = true) :
    GuardStep s i st w (w.respond f s intern st).2 := by
  cases opened : w.guard with
  | none =>
      by_cases enters : st = .enter i
      · obtain ⟨c, guard⟩ := w
        cases opened
        subst enters
        rw [respond_enter]
        refine .entered rfl rfl rfl ?_
        simp only [label]
        split <;> rfl
      · refine .free enters opened (respond_free opened ?_)
        rintro j rfl
        cases own
        exact enters rfl
  | some g =>
      by_cases leaves : st.Leaves i
      · refine .dropped g leaves opened ?_
        obtain ⟨time, rfl⟩ | ⟨time, rfl⟩ := leaves
        · simp only [respond, opened, drop_eq (armed g opened)]
        · simp only [respond, opened, drop_eq (armed g opened)]
      · have keeps : ∀ j, ¬ st.Leaves j := by
          rintro j left
          cases (Session.Step.thread_of_leaves left).symm.trans own
          exact leaves left
        obtain ⟨after, label⟩ := respond_borrowed opened keeps
        exact .borrowed g leaves opened after label

end Worker

namespace Session

variable {f : Flavour} {s : Session} {i : Nat} {w : Worker}

def guardOf (s : Session) (i : Nat) : Option Guard :=
  (s.workers[i]?).bind (·.guard)

def taskOf (s : Session) (i : Nat) : Option CompileTask :=
  (s.workers[i]?).bind (·.context.task)

theorem guardOf_of_worker (there : s.workers[i]? = some w) : s.guardOf i = w.guard := by
  rw [guardOf, there]
  rfl

/-- The service is on, and the thread has a task that is to be collected or printed. -/
def Tracked (s : Session) (i : Nat) : Prop :=
  s.service.enabled = true ∧
    ∃ t, s.taskOf i = some t ∧ (t.directive.collect = true ∨ t.directive.print = true)

theorem tracked_iff (there : s.workers[i]? = some w) :
    s.Tracked i ↔ Guard.tracks s.service w.context = true := by
  rw [Tracked, taskOf, there, Option.bind_some, Guard.tracks_iff]
  simp [Directive.collects]

/-- The switch is on exactly if there is a table, and every active guard that is open is on a
compilation that is still tracked. -/
structure Armed (s : Session) : Prop where
  switched : s.service.Switched
  tracks : ∀ (i : Nat) (w : Worker) (g : Guard), s.workers[i]? = some w → w.guard = some g →
    g.active = true → Guard.tracks s.service w.context = true

theorem armed_step (armed : s.Armed) (st : Step) : (s.step f st).2.Armed := by
  refine ⟨switched_step armed.switched st, ?_⟩
  intro i w' g there' opened' active
  have on {c : Context} (tracked : Guard.tracks s.service c = true) :
      (s.step f st).2.service.enabled = true :=
    enabled_step armed.switched (Guard.tracks_iff.mp tracked).1 st
  cases origin_step armed.switched there' with
  | stayed other there =>
      have tracked := armed.tracks i w' g there opened' active
      exact Worker.tracks_of_label tracked rfl (on tracked)
  | stepped w own there after' =>
      subst after'
      cases Worker.guardStep_respond f s.interned own fun g => armed.tracks i w g there with
      | free other before after => cases after.symm.trans opened'
      | entered enters before after label =>
          cases after.symm.trans opened'
          exact Worker.tracks_of_label active label (on active)
      | borrowed g' keeps before after label =>
          cases after.symm.trans opened'
          have tracked := armed.tracks i w g there before active
          exact Worker.tracks_of_label tracked label (on tracked)
      | dropped g' drops before after =>
          rw [after] at opened'
          cases opened'
  | joined id new =>
      subst new
      cases opened'

theorem armed_run (armed : s.Armed) (steps : List Step) : (run f s steps).2.Armed := by
  induction steps generalizing s with
  | nil => exact armed
  | cons st steps ih => exact ih (armed_step armed st)

/-! ### Where open guards come from -/

/-- The opening of a guard in a session: the thread was free, and whether the guard is active was
settled by whether the thread was tracked. -/
def Opening (f : Flavour) (s : Session) (i : Nat) (g : Guard) : Prop :=
  s.guardOf i = none ∧ (s.step f (.enter i)).1 = .ok (.flag g.active) ∧
    (g.active = true ↔ s.Tracked i)

theorem guardOf_eq_some {g : Guard} (h : s.guardOf i = some g) :
    ∃ w, s.workers[i]? = some w ∧ w.guard = some g :=
  Option.bind_eq_some_iff.mp h

theorem opening_enter (switched : s.service.Switched) {c : Context} 
    (there : s.workers[i]? = some ⟨c, none⟩) :
    s.Opening f i ⟨Guard.tracks s.service c⟩ ∧
      (s.step f (.enter i)).2.guardOf i = some ⟨Guard.tracks s.service c⟩ := by
  have answer : (s.step f (.enter i)).1 = _ := (yields_step switched there rfl).1
  have after : (s.step f (.enter i)).2.workers[i]? = _ := worker_step switched there rfl
  rw [Worker.respond_enter] at answer after
  refine ⟨⟨guardOf_of_worker there, answer, (tracked_iff there).symm⟩, ?_⟩
  exact guardOf_of_worker after

/-- A guard that is open after a step was open before, or the step opened it. -/
theorem guardOf_step (armed : s.Armed) {st : Step} {g : Guard}
    (opened : (s.step f st).2.guardOf i = some g) :
    (s.guardOf i = some g ∧ ¬ st.Leaves i) ∨
      (st = .enter i ∧ s.Opening f i g) := by
  obtain ⟨w', there', opened'⟩ := guardOf_eq_some opened
  cases origin_step armed.switched there' with
  | stayed other there =>
      refine .inl ⟨(guardOf_of_worker there).trans opened', ?_⟩
      intro leaves
      exact other (Step.thread_of_leaves leaves)
  | stepped w own there after' =>
      subst after'
      cases Worker.guardStep_respond f s.interned own fun g => armed.tracks i w g there with
      | free other before after => cases after.symm.trans opened'
      | entered enters before after label =>
          obtain ⟨c, guard⟩ := w
          cases before
          subst enters
          obtain ⟨opening, after⟩ := opening_enter (f := f) armed.switched there
          cases after.symm.trans opened
          exact .inr ⟨rfl, opening⟩
      | borrowed g' keeps before after label =>
          cases after.symm.trans opened'
          exact .inl ⟨(guardOf_of_worker there).trans before, keeps⟩
      | dropped g' drops before after =>
          rw [after] at opened'
          cases opened'
  | joined id new =>
      subst new
      cases opened'

/-- A guard that is open after a run was open before it, or it was opened on the way; since then it
was neither closed nor lost to a crash. -/
theorem guardOf_run (armed : s.Armed) {steps : List Step} {g : Guard}
    (opened : (run f s steps).2.guardOf i = some g) :
    (s.guardOf i = some g ∧ ∀ st ∈ steps, ¬ st.Leaves i) ∨
      ∃ before after, steps = before ++ .enter i :: after ∧
        (run f s before).2.Opening f i g ∧ ∀ st ∈ after, ¬ st.Leaves i := by
  induction steps generalizing s with
  | nil => exact .inl ⟨opened, by simp⟩
  | cons st steps ih =>
      cases ih (armed_step armed st) opened with
      | inl old =>
          obtain ⟨old, since⟩ := old
          cases guardOf_step armed old with
          | inl older => exact .inl ⟨older.1, List.forall_mem_cons.mpr ⟨older.2, since⟩⟩
          | inr now =>
              obtain ⟨rfl, opening⟩ := now
              exact .inr ⟨[], steps, rfl, opening, since⟩
      | inr later =>
          obtain ⟨before, after, rfl, opening, since⟩ := later
          exact .inr ⟨st :: before, after, rfl, opening, since⟩

/-! ### Dropping guards -/

/-- The session after the guard of a thread is dropped: an active one commits the peak of the
thread's task, another one leaves the service and the symbols as they are. -/
theorem step_close_active (armed : s.Armed) {g : Guard} (there : s.workers[i]? = some w)
    (opened : w.guard = some g) (active : g.active = true) (time : Seconds) :
    ∃ table t, s.service.On table ∧ w.context.task = some t ∧
      s.commit? f (.close i time) = some (i, Service.commitOf w.context t time) ∧
      s.step f (.close i time) = (.ok (.flag true),
        { s with
          service := s.service.commit f table w.context t time
          symbols := s.symbols.pinMethod t.method }.putWorker i { w with guard := none }) := by
  have tracked := armed.tracks i w g there opened active
  obtain ⟨c, guard⟩ := w
  cases opened
  obtain ⟨on, t, (task : c.task = some t), collects⟩ := Guard.tracks_iff.mp tracked
  obtain ⟨table, on⟩ := armed.switched.exists_on on
  refine ⟨table, t, on, task, ?_, ?_⟩
  · simp [commit?, ending?, there, active, Service.commit?, task, on.enabled, collects]
  · have finished := Service.finish_on f on task collects s.symbols time
    simp [step, withWorker, there, dropGuard, Guard.drop, active, finished, outcome, bind,
      Except.bind, pure, Except.pure]

theorem step_close_inactive {g : Guard} (there : s.workers[i]? = some w)
    (opened : w.guard = some g) (inactive : g.active = false) (time : Seconds) :
    s.commit? f (.close i time) = none ∧
      s.step f (.close i time) = (.ok (.flag true), s.putWorker i { w with guard := none }) := by
  obtain ⟨c, guard⟩ := w
  cases opened
  constructor
  · simp [commit?, ending?, there, inactive]
  · simp [step, withWorker, there, dropGuard, Guard.drop, inactive, outcome, bind, Except.bind,
      pure, Except.pure]

/-- A crash leaves the session as closing would, commit and all. -/
theorem step_crash_armed (armed : s.Armed) (there : s.workers[i]? = some w) (time : Seconds) :
    s.step f (.crash i time) = (.error (.violated .crashed), (s.step f (.close i time)).2) := by
  refine Prod.ext ?_ ((step_crash f s i time).trans (step_close f s i time).symm)
  rw [(yields_step armed.switched there rfl).1]
  cases opened : w.guard with
  | none => simp only [Worker.respond, opened]
  | some g => simp only [Worker.respond, opened, Worker.drop_eq (armed.tracks i w g there opened)]

/-! ### Counting along a run -/

/-- The number of steps of a run that are of some kind in the session they are taken in. -/
def tally (f : Flavour) (kind : Session → Step → Bool) (s : Session) : List Step → Nat
  | [] => 0
  | st :: rest => (kind s st).toNat + tally f kind (s.step f st).2 rest

/-- The step opens an active guard. -/
def opens (f : Flavour) (s : Session) : Step → Bool
  | .enter i => (s.guardOf i).isNone && ((s.step f (.enter i)).2.guardOf i).any (·.active)
  | _ => false

/-- The step drops an active guard. -/
def drops (s : Session) : Step → Bool
  | .close i _ | .crash i _ => (s.guardOf i).any (·.active)
  | _ => false

/-- The step calls the hook for the end of a compilation by hand: the service is on, there is a
task, and the hook goes through. -/
def endsByHand (f : Flavour) (s : Session) : Step → Bool
  | .finish i time =>
      s.service.enabled && (s.taskOf i).isSome && (s.step f (.finish i time)).1.isOk
  | _ => false

/-- The number of active guards that are open. -/
def activeGuards (s : Session) : Nat :=
  s.workers.countP fun w => w.guard.any (·.active)

theorem activeGuards_set (there : s.workers[i]? = some w) (w' : Worker) :
    (s.workers.set i w').countP (fun w => w.guard.any (·.active)) + (w.guard.any (·.active)).toNat =
      s.activeGuards + (w'.guard.any (·.active)).toNat := by
  obtain ⟨bound, at_i⟩ := List.getElem?_eq_some_iff.mp there
  have counted : w.guard.any (·.active) = true → 0 < s.activeGuards :=
    fun active => List.countP_pos_iff.mpr ⟨w, List.mem_of_getElem? there, active⟩
  rw [List.countP_set bound, at_i, ← activeGuards]
  generalize s.activeGuards = n at counted ⊢
  generalize w.guard.any (·.active) = b at counted ⊢
  generalize w'.guard.any (·.active) = b'
  cases b <;> cases b' <;> simp at counted ⊢ <;> omega

/-- What a step opens and drops is what it changes about the guard of its thread. -/
theorem guard_balance (armed : s.Armed) {st : Step} (there : s.workers[i]? = some w)
    (own : st.thread = some i) :
    (w.guard.any (·.active)).toNat + (s.opens f st).toNat =
      ((w.respond f s.service s.interned st).2.guard.any (·.active)).toNat +
        (s.drops st).toNat := by
  have before := guardOf_of_worker there
  have after := guardOf_of_worker (worker_step (f := f) armed.switched there own)
  cases Worker.guardStep_respond f s.interned own fun g => armed.tracks i w g there with
  | free other free free' => cases st <;> cases own <;> simp_all [drops, opens]
  | entered enters free opened label =>
      subst enters
      simp_all [drops, opens]
  | borrowed g keeps opened opened' label =>
      cases st <;> cases own <;> simp_all [drops, opens, Step.Leaves]
  | dropped g leaves opened free =>
      obtain ⟨time, rfl⟩ | ⟨time, rfl⟩ := leaves
      · simp [drops, opens, before, opened, free]
      · simp [drops, opens, before, opened, free]

/-- A step that opens an active guard adds one, and a step that drops one takes one away. -/
theorem activeGuards_step (armed : s.Armed) (st : Step) :
    (s.step f st).2.activeGuards + (s.drops st).toNat = s.activeGuards + (s.opens f st).toNat := by
  cases own : st.thread with
  | none =>
      have neither : s.drops st = false ∧ s.opens f st = false := by
        cases st <;> first | exact ⟨rfl, rfl⟩ | cases own
      rw [neither.1, neither.2, activeGuards, activeGuards]
      cases workers_step_shared f s own with
      | inl same => rw [same]
      | inr more =>
          obtain ⟨id, more⟩ := more
          rw [more, List.countP_append]
          rfl
  | some i =>
      cases there : s.workers[i]? with
      | none =>
          have stays : (s.step f st).2 = s := by rw [step_noWorker there own]
          have neither : s.drops st = false ∧ s.opens f st = false := by
            cases st <;> cases own <;> simp [drops, opens, guardOf, stays, there]
          rw [stays, neither.1, neither.2]
      | some w =>
          have balance := guard_balance (f := f) armed there own
          have moved := activeGuards_set there (w.respond f s.service s.interned st).2
          rw [← (yields_step armed.switched there own).2, ← activeGuards] at moved
          omega

theorem tally_opens (armed : s.Armed) (steps : List Step) :
    s.activeGuards + tally f (opens f) s steps =
      tally f drops s steps + (run f s steps).2.activeGuards := by
  induction steps generalizing s with
  | nil => exact (Nat.zero_add _).symm
  | cons st steps ih =>
      have first := activeGuards_step (f := f) armed st
      have rest := ih (armed_step (f := f) armed st)
      simp only [tally, run]
      omega

/-- A step commits when it drops an active guard or ends a compilation by hand, and never else. -/
theorem commits_iff (armed : s.Armed) (st : Step) :
    (s.commit? f st).isSome.toNat = (s.drops st).toNat + (s.endsByHand f st).toNat := by
  have dropped (i : Nat) (time : Seconds) :
      (s.commit? f (.close i time)).isSome = s.drops (.close i time) := by
    cases there : s.workers[i]? with
    | none => simp [commit?, ending?, drops, guardOf, there]
    | some w =>
        cases opened : w.guard with
        | none =>
            obtain ⟨c, guard⟩ := w
            cases opened
            simp [commit?, ending?, drops, guardOf, there]
        | some g =>
            cases active : g.active with
            | false =>
                rw [(step_close_inactive (f := f) there opened active time).1]
                simp [drops, guardOf, there, opened, active]
            | true =>
                obtain ⟨-, t, -, -, commits, -⟩ :=
                  step_close_active (f := f) armed there opened active time
                rw [commits]
                simp [drops, guardOf, there, opened, active]
  cases st with
  | close i time =>
      rw [dropped]
      rfl
  | crash i time =>
      rw [show s.commit? f (.crash i time) = s.commit? f (.close i time) from rfl, dropped]
      rfl
  | finish i time =>
      rw [show s.drops (.finish i time) = false from rfl, Bool.toNat_false, Nat.zero_add]
      congr 1
      cases there : s.workers[i]? with
      | none => simp [commit?, ending?, endsByHand, taskOf, there]
      | some w =>
          have answer : (s.step f (.finish i time)).1 = _ :=
            (yields_step armed.switched there rfl).1
          obtain ⟨c, guard⟩ := w
          cases guard with
          | some g =>
              rw [endsByHand, answer]
              simp [commit?, ending?, there, Worker.respond, Worker.whenFree, Except.isOk,
                Except.toBool]
          | none =>
              rw [endsByHand, answer]
              have committed := Service.commit?_isSome f s.service c time
              cases refused : s.service.refusal? f c <;>
                simp_all [commit?, ending?, taskOf, Worker.respond, Worker.whenFree, Except.isOk,
                  Except.toBool]
  | _ => rfl

/-! ### Threads that are borrowed -/

/-- What a thread commits, it commits by a step of its own. -/
theorem thread_of_commit? {st : Step} {c : Commit} (commits : s.commit? f st = some (i, c)) :
    st.thread = some i := by
  obtain ⟨⟨j, ctx, time⟩, ending, commits⟩ := Option.bind_eq_some_iff.mp commits
  obtain ⟨c', -, same⟩ := Option.map_eq_some_iff.mp commits
  cases same
  cases st with
  | finish j time | close j time | crash j time =>
      simp only [ending?] at ending
      split at ending
      · simp_all [Step.thread]
      · cases ending
  | _ => cases ending

/-- While its guard is open a thread keeps the guard and its task, and it commits nothing. -/
theorem step_borrowed (armed : s.Armed) {st : Step} {g : Guard} (there : s.workers[i]? = some w)
    (opened : w.guard = some g) (keeps : ¬ st.Leaves i) :
    (∃ w', (s.step f st).2.workers[i]? = some w' ∧ w'.guard = some g ∧ w'.label = w.label) ∧
      ∀ c, s.commit? f st ≠ some (i, c) := by
  constructor
  · by_cases own : st.thread = some i
    · refine ⟨_, worker_step armed.switched there own, ?_⟩
      cases Worker.guardStep_respond f s.interned own fun g => armed.tracks i w g there with
      | free other before after => cases before.symm.trans opened
      | entered enters before after label => cases before.symm.trans opened
      | borrowed g' keeps before after label =>
          cases before.symm.trans opened
          exact ⟨after, label⟩
      | dropped g' leaves before after => exact absurd leaves keeps
    · exact ⟨w, worker_step_of_ne armed.switched there own, opened, rfl⟩
  · intro c commits
    have own := thread_of_commit? commits
    obtain ⟨ctx, guard⟩ := w
    cases opened
    cases st with
    | finish j time =>
        cases own
        simp [commit?, ending?, there] at commits
    | close j time =>
        cases own
        exact keeps (.inl ⟨time, rfl⟩)
    | crash j time =>
        cases own
        exact keeps (.inr ⟨time, rfl⟩)
    | _ => cases commits

end Session

namespace Ledger

open Session (tally drops endsByHand)

variable {f : Flavour} {L : Ledger}

theorem length_commits_foldl (armed : L.session.Armed) (steps : List Session.Step) :
    (steps.foldl (step f) L).commits.length =
      L.commits.length + tally f drops L.session steps +
        tally f (endsByHand f) L.session steps := by
  induction steps generalizing L with
  | nil => rfl
  | cons st steps ih =>
      have first : (L.step f st).commits.length =
          L.commits.length + (L.session.commit? f st).isSome.toNat := by
        simp only [step, commitsAfter]
        cases L.session.commit? f st <;> rfl
      have rest := ih (L := L.step f st) (Session.armed_step armed st)
      rw [first, Session.commits_iff armed] at rest
      simp only [List.foldl_cons, tally]
      rw [rest]
      simp only [step]
      omega

/-- While no record has more commits than it can count, the records count all commits. -/
def Counted (L : Ledger) : Prop :=
  (∀ p, (commitsTo p L.commits).length < 2 ^ 32) →
    L.session.service.recompilations = L.commits.length

theorem counted_step (h : L.Sound) (counted : L.Counted) (st : Session.Step) :
    (L.step f st).Counted := by
  intro room
  cases Session.tableStep f h.switched st with
  | same quiet enabled after =>
      simp only [step, commitsAfter, quiet] at room ⊢
      rw [← counted room, Service.recompilations, after]
      rfl
  | created quiet before after =>
      simp only [step, commitsAfter, quiet] at room ⊢
      rw [h.off before.table, Service.recompilations, after.table]
      rfl
  | committed i m c commits after =>
      obtain ⟨t, on, on'⟩ := after.table
      obtain ⟨p, origin, placed⟩ := h.placed i m after.works
      simp only [step, commitsAfter, commits, origin] at room ⊢
      have fewer (q : Place) : (commitsTo q L.commits).length < 2 ^ 32 := by
        refine Nat.lt_of_le_of_lt ?_ (room q)
        rw [commitsTo_cons]
        split
        · exact Nat.le_succ _
        · exact Nat.le_refl _
      have before := counted fewer
      rw [Service.recompilations, on.table] at before
      rw [Service.recompilations, on'.table, List.length_cons, ← before]
      refine StatTable.recompilations_upsert t m c fun r found => ?_
      rw [StatTable.get?_eq_recordAt h.symbols (h.on t on.table).recorded placed] at found
      have told := (h.on t on.table).tells p
      have room := room p
      rw [commitsTo_cons, if_pos rfl] at room
      rw [found] at told
      cases earlier : commitsTo p L.commits with
      | nil =>
          rw [earlier] at told
          cases told
      | cons c' cs =>
          rw [earlier] at told room
          obtain ⟨r', same, count, -⟩ := told
          cases same
          rw [count, UInt32.toNat_ofNat_of_lt']
          · simpa using room
          · exact Nat.lt_of_succ_lt room

theorem counted_foldl (h : L.Sound) (counted : L.Counted) (steps : List Session.Step) :
    (steps.foldl (step f) L).Counted := by
  induction steps generalizing L with
  | nil => exact counted
  | cons st steps ih => exact ih (sound_step h st) (counted_step h counted st)

end Ledger

namespace Session

/-- The guards of a session that has taken some steps. -/
structure GuardsKept (f : Flavour) (inline : InlineOutput) (steps : List Step) (s : Session) :
    Prop where
  /-- A free thread can always open a guard. -/
  enters : ∀ i c, s.workers[i]? = some ⟨c, none⟩ → ∃ g, s.Opening f i g ∧
    (s.step f (.enter i)).2.guardOf i = some g
  /-- A guard that is open was opened, and has not been dropped since. -/
  opened : ∀ i g, s.guardOf i = some g → ∃ before after, steps = before ++ .enter i :: after ∧
    (run f (.new inline) before).2.Opening f i g ∧ ∀ st ∈ after, ¬ st.Leaves i
  /-- Until then its thread keeps it, goes on with its task and commits nothing. -/
  borrowed : ∀ i w g st, s.workers[i]? = some w → w.guard = some g →
    ¬ st.Leaves i →
      (∃ w', (s.step f st).2.workers[i]? = some w' ∧ w'.guard = some g ∧ w'.label = w.label) ∧
        ∀ c, s.commit? f st ≠ some (i, c)
  /-- Closing an active guard makes one commit. -/
  active : ∀ i w g time, s.workers[i]? = some w → w.guard = some g → g.active = true →
    ∃ table t, s.service.On table ∧ w.context.task = some t ∧
      s.commit? f (.close i time) = some (i, Service.commitOf w.context t time) ∧
      s.step f (.close i time) = (.ok (.flag true),
        { s with
          service := s.service.commit f table w.context t time
          symbols := s.symbols.pinMethod t.method }.putWorker i { w with guard := none })
  /-- Closing any other guard makes none. -/
  inactive : ∀ i w g time, s.workers[i]? = some w → w.guard = some g → g.active = false →
    s.commit? f (.close i time) = none ∧
      s.step f (.close i time) = (.ok (.flag true), s.putWorker i { w with guard := none })
  /-- A crash on a thread leaves what closing its guard would leave. -/
  crash : ∀ i w time, s.workers[i]? = some w →
    s.step f (.crash i time) = (.error (.violated .crashed), (s.step f (.close i time)).2)
  /-- The active guards that were opened are the ones dropped and the ones still open. -/
  balance : tally f (opens f) (.new inline) steps =
    tally f drops (.new inline) steps + s.activeGuards
  /-- While no record has more commits than it can count, the records count the active guards that
  were dropped and the compilations that were ended by hand. -/
  counted : (∀ p, (Ledger.commitsTo p (Ledger.after f inline steps).commits).length < 2 ^ 32) →
    s.service.recompilations =
      tally f drops (.new inline) steps + tally f (endsByHand f) (.new inline) steps

theorem armed_new (inline : InlineOutput) : (new inline).Armed where
  switched := Service.switched_new inline
  tracks i w g there := by cases there

/-- Whatever steps a session takes, every guard is active as it was decided when it was opened, an
active one commits once, when it is dropped, and no commit is lost. -/
theorem guards_kept (f : Flavour) (inline : InlineOutput) (steps : List Step) :
    GuardsKept f inline steps (run f (.new inline) steps).2 where
  enters i c there :=
    ⟨_, opening_enter (armed_run (armed_new inline) steps).switched there⟩
  opened i g opened := by
    cases guardOf_run (armed_new inline) opened with
    | inl old => cases old.1
    | inr later => exact later
  borrowed i w g st there opened keeps :=
    step_borrowed (armed_run (armed_new inline) steps) there opened keeps
  active i w g time there opened active :=
    step_close_active (armed_run (armed_new inline) steps) there opened active time
  inactive i w g time there opened inactive := step_close_inactive there opened inactive time
  crash i w time there := step_crash_armed (armed_run (armed_new inline) steps) there time
  balance := by
    rw [← tally_opens (armed_new inline)]
    exact (Nat.zero_add _).symm
  counted room := by
    have counted := Ledger.counted_foldl (f := f) (Ledger.sound_start inline) (fun _ => rfl) steps
    have total := Ledger.length_commits_foldl (f := f) (L := .start inline) (armed_new inline) steps
    have session := Ledger.session_foldl f (.start inline) steps
    change _ = (run f (.new inline) steps).2 at session
    rw [← session, counted room, total]
    exact congrArg (· + _) (Nat.zero_add _)

end Session

end ArenaPeak
