import ArenaPeak.Proofs.Lanes
import ArenaPeak.Proofs.Operations

/-!
Before and after a service is switched on. Until then there is no table, no operation counts,
commits or prints anything, and a hook that is called by hand leaves the session as it is, so the
rest of a run does not show whether it was called; from then on the switch stays on and the table
stays there. A guard that was opened by then stays inactive: it passes events on once the service is
on, but it never commits.
-/

namespace ArenaPeak

open Trace

/-! ### Hooks of a service that is off -/

namespace Service

variable {f : Flavour} {s : Service} {c : Context}

theorem start_off (off : s.enabled = false) :
    s.start f c = .error .notEnabled ∨ s.start f c = .ok c := by
  cases f with
  | debug => exact .inl (by simp [start, off, Flavour.assert_debug_false, bind, Except.bind])
  | release =>
      exact .inr (by
        simp [start, off, Flavour.assert_release, bind, Except.bind, pure, Except.pure])

theorem arena_off (off : s.enabled = false) (delta : Int64) (tag : ArenaTag) :
    s.arena f c delta tag = .error .notEnabled ∨ s.arena f c delta tag = .ok (false, c) := by
  cases f with
  | debug => exact .inl (by simp [arena, off, Flavour.assert_debug_false, bind, Except.bind])
  | release =>
      exact .inr (by
        simp [arena, off, Flavour.assert_release, bind, Except.bind, pure, Except.pure])

/-- The end of a compilation looks for the table, and not at the switch, once its contract is
met. -/
theorem finish_off (off : s.Off) (symbols : SymbolStore) (time : Seconds) :
    s.finish f symbols c time = .error .notEnabled ∨
      s.finish f symbols c time = .ok (s, symbols) := by
  cases f with
  | debug =>
      exact .inl (by simp [finish, off.enabled, Flavour.assert_debug_false, bind, Except.bind])
  | release =>
      exact .inr (by
        simp [finish, off.table, Flavour.assert_release, bind, Except.bind, pure, Except.pure])

end Service

namespace Replay

variable {f : Flavour} {config : StatConfig} {site : Site}

theorem clearTask_freshWorkers {first : ThreadId} {n : Nat} {ctx : Context}
    (mem : ctx ∈ freshWorkers first n) : ctx.clearTask = ctx := by
  obtain ⟨i, -, rfl⟩ := List.mem_map.mp mem
  rfl

/-- While the service is off the workers of a replay stay as they are made. -/
structure Unmoved (site : Site) (n : Nat) (p : Progress) : Prop where
  workers : p.workers = freshWorkers site.nextThread n
  tracked : p.tracked = 0
  service : p.site.service = site.service

theorem unmoved_turned {n : Nat} {p p' : Progress} {t : Turn} (off : site.service.Off)
    (before : Unmoved site n p) (turned : Turned f config p t p') : Unmoved site n p' := by
  have off : p.site.service.Off := before.service ▸ off
  cases turned with
  | compiled ctx site' ctx' worker left =>
      cases left with
      | on table on => cases off.table.symm.trans on.table
      | off _ =>
          refine ⟨?_, ?_, before.service⟩
          · obtain ⟨bound, eq⟩ := List.getElem?_eq_some_iff.mp worker
            have fresh : ctx.clearTask = ctx :=
              clearTask_freshWorkers (before.workers ▸ List.mem_of_getElem? worker)
            have same : p.workers.set t.worker ctx.clearTask = p.workers := by
              rw [fresh, ← eq, List.set_getElem_self]
            exact same.trans before.workers
          · simp [before.tracked, off.enabled]

namespace Job

/-- However far a replay gets while the service is off, its workers stay as they are made. -/
theorem unmoved_play (f : Flavour) (job : Job) (off : site.service.Off)
    (valid : job.trace.validate = .ok ()) (k : Nat) :
    ∃ p, play f job.config (.start site job.workers) (job.turns.take k) = .ok p ∧
      Unmoved site job.workers p := by
  have inTurns : ∀ turn ∈ job.turns.take k, turn ∈ job.turns :=
    fun turn mem => List.mem_of_mem_take mem
  refine play_kept f job.config (motive := fun _ p => Unmoved site job.workers p)
    (fun cs p t p' before turned => unmoved_turned off before turned)
    off.switched (sound_start site job.workers) ?_ ?_ [] ⟨rfl, rfl, rfl⟩
  · exact fun turn mem => job.schedule.staffed_start site turn (inTurns turn mem)
  · exact fun turn mem => job.schedule.affordable valid turn (inTurns turn mem)

theorem service_run_off (f : Flavour) (job : Job) (site : Site) (off : site.service.Off) :
    (job.run f site).2.service = site.service := by
  refine run_kept (P := fun site' => site'.service = site.service) ?_ off.switched fun _ => rfl
  intro site₁ ctx c time site' ctx' before compiled
  cases compiled with
  | off _ => exact before
  | on table on =>
      rw [before] at on
      cases off.table.symm.trans on.table

end Job

end Replay

namespace Session

variable {f : Flavour} {s : Session} {i : Nat} {w : Worker}

theorem putWorker_self (there : s.workers[i]? = some w) : s.putWorker i w = s := by
  obtain ⟨bound, eq⟩ := List.getElem?_eq_some_iff.mp there
  rw [putWorker, ← eq, List.set_getElem_self]

/-- Until the service is on no step but that changes it. -/
theorem service_step_off (off : s.service.Off) {st : Step} (other : st ≠ .enable) :
    (s.step f st).2.service = s.service := by
  cases own : st.thread with
  | some i =>
      cases there : s.workers[i]? with
      | none => rw [step_noWorker there own]
      | some w =>
          cases serviceStep (f := f) off.switched there own with
          | kept quiet after => exact after
          | committed c time table t ends task commits after =>
              simp [Service.commit?, task, off.enabled] at commits
  | none =>
      cases st with
      | enable => exact absurd rfl other
      | report order human minSize limit => rw [step_report]
      | views order minSize => rw [step_views]
      | newContext | lookup | hold | release | liveCount | purge => rfl
      | _ => cases own

end Session

namespace Worker

variable {f : Flavour} {s : Service} {intern : Nat → MethodName → Method} {w : Worker}

/-- Until the service is on no step of a thread is counted. -/
theorem counter_respond_off (off : s.enabled = false) (st : Session.Step) :
    (w.respond f s intern st).2.context.counter = w.context.counter := by
  obtain ⟨c, guard⟩ := w
  cases st with
  | start i =>
      cases guard with
      | some g => rfl
      | none =>
          simp only [respond, whenFree]
          cases Service.start_off (f := f) (c := c) off with
          | inl failed => rw [failed]; rfl
          | inr idle => rw [idle]; rfl
  | arena i delta tag =>
      cases guard with
      | some g =>
          simp only [respond, Guard.arena_off f off]
          rfl
      | none =>
          simp only [respond]
          cases Service.arena_off (f := f) (c := c) off delta tag with
          | inl failed => rw [failed]; rfl
          | inr idle => rw [idle]; rfl
  | enter i =>
      cases guard with
      | some g => rfl
      | none =>
          have untracked : Guard.tracks s c = false := by simp [Guard.tracks, off]
          rw [respond_enter, untracked]
          rfl
  | finish i time =>
      simp only [respond, whenFree]
      cases guard with
      | some g => rfl
      | none => cases s.refusal? f c <;> rfl
  | close i time | crash i time =>
      simp only [respond]
      cases guard with
      | none => rfl
      | some g =>
          simp only [drop]
          split <;> rfl
  | setTask i table name kind directive live | clearTask i => cases guard <;> rfl
  | _ => rfl

end Worker

/-- A call of a hook: a compilation starts, an arena changes, a compilation ends. -/
def Operation.hook : Operation → Bool
  | .step (.start _) | .step (.arena _ _ _) | .step (.finish _ _) => true
  | _ => false

/-- A step that drops the guard of a thread. -/
def Operation.Leaves (op : Operation) (i : Nat) : Prop :=
  ∃ st : Session.Step, op = .step st ∧ st.Leaves i

namespace Session

variable {f : Flavour} {s : Session} {i : Nat} {op : Operation}

theorem service_operate_off (off : s.service.Off) (other : op ≠ .step .enable) :
    (s.operate f op).2.service = s.service := by
  cases op with
  | step st => exact service_step_off off fun same => other (congrArg Operation.step same)
  | replay job => exact job.service_run_off f s.site off

/-- Until the service is on a hook leaves the session as it is. -/
theorem operate_hook_off (off : s.service.Off) (hook : op.hook = true) :
    (s.operate f op).2 = s := by
  cases op with
  | replay job => cases hook
  | step st =>
      cases st with
      | start i =>
          simp only [operate, step]
          cases withContext_cases s i _ with
          | inl refused =>
              obtain ⟨e, refused⟩ := refused
              rw [refused]
          | inr free =>
              obtain ⟨c, there, run⟩ := free
              rw [run]
              cases Service.start_off (f := f) (c := c) off.enabled with
              | inl failed => rw [failed]; rfl
              | inr idle =>
                  rw [idle]
                  exact putWorker_self there
      | arena i delta tag =>
          simp only [operate, step]
          cases withWorker_cases s i _ with
          | inl gone => rw [gone]
          | inr present =>
              obtain ⟨⟨c, guard⟩, there, run⟩ := present
              rw [run]
              cases guard with
              | some g =>
                  simp only [Guard.arena_off f off.enabled]
                  exact putWorker_self there
              | none =>
                  cases Service.arena_off (f := f) (c := c) off.enabled delta tag with
                  | inl failed => simp only [failed]; rfl
                  | inr idle =>
                      simp only [idle]
                      exact putWorker_self there
      | finish i time =>
          simp only [operate, step]
          cases withContext_cases s i _ with
          | inl refused =>
              obtain ⟨e, refused⟩ := refused
              rw [refused]
          | inr free =>
              obtain ⟨c, there, run⟩ := free
              rw [run]
              cases Service.finish_off (f := f) (c := c) off s.symbols time with
              | inl failed => rw [failed]; rfl
              | inr idle => rw [idle]; rfl
      | _ => cases hook

/-- Nothing has been recorded: the switch is off, there is no table, the counters are as they were
made, nothing has been printed and no guard is active. -/
structure Untouched (inline : InlineOutput) (s : Session) : Prop where
  off : s.service.Off
  size : s.service.size = 0
  inline : s.service.inline = inline
  counters : ∀ w ∈ s.workers, w.context.counter = .zero
  guards : ∀ w ∈ s.workers, ∀ g, w.guard = some g → g.active = false

theorem untouched_new (inline : InlineOutput) : (new inline).Untouched inline where
  off := ⟨rfl, rfl⟩
  size := rfl
  inline := rfl
  counters w mem := by cases mem
  guards w mem := by cases mem

theorem untouched_operate {inline : InlineOutput} (armed : s.Armed) (before : s.Untouched inline)
    (other : op ≠ .step .enable) : (s.operate f op).2.Untouched inline := by
  have service := service_operate_off (f := f) before.off other
  have off : (s.operate f op).2.service.Off := service ▸ before.off
  refine ⟨off, ?_, ?_, ?_, ?_⟩
  · rw [service, before.size]
  · rw [service, before.inline]
  · intro w' mem
    cases op with
    | replay job => exact before.counters w' mem
    | step st =>
        obtain ⟨i, there'⟩ := List.mem_iff_getElem?.mp mem
        cases origin_step armed.switched there' with
        | stayed other there => exact before.counters w' (List.mem_of_getElem? there)
        | stepped w own there after =>
            rw [after, Worker.counter_respond_off before.off.enabled]
            exact before.counters w (List.mem_of_getElem? there)
        | joined id new =>
            rw [new]
            rfl
  -- an active guard would be on a tracked compilation, which needs the service to be on
  · intro w mem g opened
    obtain ⟨i, there⟩ := List.mem_iff_getElem?.mp mem
    by_contra active
    rw [Bool.not_eq_false] at active
    have tracked := (armed_operate (f := f) armed op).tracks i w g there opened active
    cases off.enabled.symm.trans (Guard.tracks_iff.mp tracked).1

theorem untouched_reached {inline : InlineOutput} (armed : s.Armed) (before : s.Untouched inline)
    {ops : List Operation} (never : .step .enable ∉ ops) : (s.reached f ops).Untouched inline := by
  induction ops generalizing s with
  | nil => exact before
  | cons op ops ih =>
      obtain ⟨other, never⟩ := not_or.mp (mt List.mem_cons.mpr never)
      exact ih (armed_operate armed op) (untouched_operate armed before (Ne.symm other)) never

/-- Until the service is on the hooks may as well be left out. -/
theorem reached_hooks (off : s.service.Off) {ops : List Operation}
    (never : .step .enable ∉ ops) : s.reached f ops = s.reached f (ops.filter (!·.hook)) := by
  induction ops generalizing s with
  | nil => rfl
  | cons op ops ih =>
      obtain ⟨other, never⟩ := not_or.mp (mt List.mem_cons.mpr never)
      have service := service_operate_off (f := f) off (Ne.symm other)
      have rest : (s.operate f op).2.reached f ops =
          (s.operate f op).2.reached f (ops.filter (!·.hook)) := ih (service ▸ off) never
      cases hook : op.hook with
      | true =>
          have same := operate_hook_off (f := f) off hook
          rw [List.filter_cons_of_neg (by simp [hook])]
          change (s.operate f op).2.reached f ops = _
          rw [rest, same]
      | false =>
          rw [List.filter_cons_of_pos (by simp [hook])]
          exact rest

/-! ### Switching on -/

theorem enabled_operate_enable (f : Flavour) (switched : s.service.Switched) :
    (s.operate f (.step .enable)).2.service.enabled = true := by
  rw [operate]
  cases switched.cases with
  | inl off =>
      rw [step_enable_off off]
  | inr on =>
      obtain ⟨table, on⟩ := on
      rw [step_enable_on on.enabled]
      exact on.enabled

/-- A run that switches the service on leaves it on, with a table. -/
theorem exists_on_reached (switched : s.service.Switched) {ops : List Operation}
    (mem : .step .enable ∈ ops) : ∃ table, (s.reached f ops).service.On table := by
  obtain ⟨before, after, rfl⟩ := List.append_of_mem mem
  have there : (s.reached f before).service.Switched :=
    reached_kept (P := fun s => s.service.Switched) (fun _ op kept => switched_operate kept op)
      switched before
  rw [reached_append, reached_cons]
  have kept := reached_kept (f := f) (P := fun s => s.service.Switched ∧ s.service.enabled = true)
    (fun _ op kept => ⟨switched_operate kept.1 op, enabled_operate kept.1 kept.2 op⟩)
    ⟨switched_operate there (.step .enable), enabled_operate_enable f there⟩ after
  exact kept.1.exists_on kept.2

/-! ### Guards that were opened before -/

/-- The thread has an inactive guard open. It never commits, on whatever way out, and it passes the
events on to the counter as long as the service is on. -/
structure Inert (f : Flavour) (s : Session) (i : Nat) (c : Context) : Prop where
  opened : s.workers[i]? = some ⟨c, some ⟨false⟩⟩
  silent : ∀ st commit, s.commit? f st ≠ some (i, commit)
  close : ∀ time, s.step f (.close i time) = (.ok (.flag true), s.putWorker i ⟨c, none⟩)
  crash : ∀ time,
    s.step f (.crash i time) = (.error (.violated .crashed), s.putWorker i ⟨c, none⟩)
  arena : s.service.enabled = true → ∀ delta tag, s.step f (.arena i delta tag) =
    match c.account f delta tag with
    | .ok (reached, c') => (.ok (.flag reached), s.putWorker i ⟨c', some ⟨false⟩⟩)
    | .error v => (.error (.violated v), s)

theorem inert_of_guard (armed : s.Armed) {c : Context}
    (opened : s.workers[i]? = some ⟨c, some ⟨false⟩⟩) : s.Inert f i c := by
  have closed (time : Seconds) := step_close_inactive (f := f) opened rfl rfl time
  refine ⟨opened, ?_, fun time => (closed time).2, ?_, ?_⟩
  · intro st commit commits
    by_cases leaves : st.Leaves i
    · obtain ⟨time, rfl⟩ | ⟨time, rfl⟩ := leaves
      · cases (closed time).1.symm.trans commits
      -- a crash drops the guard, as a close does
      · have dropped : s.commit? f (.crash i time) = s.commit? f (.close i time) := rfl
        rw [dropped, (closed time).1] at commits
        cases commits
    · exact (step_borrowed (f := f) armed opened rfl leaves).2 commit commits
  · intro time
    rw [step_crash_armed armed opened, (closed time).2]
  · intro on delta tag
    simp only [step, withWorker, opened, Guard.arena_on f on]
    cases c.account f delta tag <;> rfl

theorem guardOf_operate (armed : s.Armed) {g : Guard} (opened : s.guardOf i = some g)
    (keeps : ¬ op.Leaves i) :
    (s.operate f op).2.guardOf i = some g := by
  cases op with
  | replay job => exact opened
  | step st =>
      obtain ⟨w, there, opened⟩ := guardOf_eq_some opened
      have stays : ¬ st.Leaves i := fun leaves => keeps ⟨st, rfl, leaves⟩
      obtain ⟨w', there', opened', -⟩ := (step_borrowed (f := f) armed there opened stays).1
      exact (guardOf_of_worker there').trans opened'

theorem guardOf_reached (armed : s.Armed) {g : Guard} (opened : s.guardOf i = some g)
    {ops : List Operation} (keeps : ∀ op ∈ ops, ¬ op.Leaves i) :
    (s.reached f ops).guardOf i = some g := by
  induction ops generalizing s with
  | nil => exact opened
  | cons op ops ih =>
      rw [List.forall_mem_cons] at keeps
      exact ih (armed_operate armed op) (guardOf_operate armed opened keeps.1) keeps.2

/-- A thread that opens a guard while the service is off. -/
theorem guardOf_enter_off (off : s.service.Off) {c : Context}
    (free : s.workers[i]? = some ⟨c, none⟩) :
    (s.operate f (.step (.enter i))).1 = .answer (.ok (.flag false)) ∧
      (s.operate f (.step (.enter i))).2.guardOf i = some ⟨false⟩ := by
  have untracked : Guard.tracks s.service c = false := by simp [Guard.tracks, off.enabled]
  obtain ⟨⟨-, answer, -⟩, after⟩ := opening_enter (f := f) off.switched free
  rw [untracked] at answer after
  exact ⟨congrArg Reply.answer answer, after⟩

/-- How the moment at which a service is switched on shows in its runs. -/
structure EnablesOnce (f : Flavour) (inline : InlineOutput) : Prop where
  /-- At all times the switch is on exactly if there is a table. -/
  switched : ∀ ops, ((new inline).reached f ops).service.enabled = true ↔
    ∃ table, ((new inline).reached f ops).service.table = some table
  /-- Until the service is switched on nothing is recorded, and then switching it on succeeds: it
  flips the switch and makes an empty table. -/
  untouched : ∀ ops, .step .enable ∉ ops → ((new inline).reached f ops).Untouched inline ∧
    ((new inline).reached f ops).operate f (.step .enable) =
      (.answer (.ok .done),
        { (new inline).reached f ops with service := ⟨true, some .empty, inline⟩ })
  /-- Replays do not count on their workers either. -/
  replays : ∀ ops, .step .enable ∉ ops → ∀ job : Replay.Job, job.trace.validate = .ok () →
    ∀ k, ∃ p, Replay.play f job.config (.start ((new inline).reached f ops).site job.workers)
        (job.turns.take k) = .ok p ∧
      Replay.Unmoved ((new inline).reached f ops).site job.workers p
  /-- From then on the switch stays on and there is a table; switching on again fails and changes
  neither. -/
  enabled : ∀ ops, .step .enable ∈ ops →
    (∃ table, ((new inline).reached f ops).service.On table) ∧
    ((new inline).reached f ops).operate f (.step .enable) =
      (.answer (.error (.violated .enabledTwice)), (new inline).reached f ops)
  /-- The answers after switching on, and the sessions, do not show which hooks were called
  before. -/
  hooks : ∀ before after, .step .enable ∉ before →
    trail (operate f) ((new inline).reached f before) (.step .enable :: after) =
      trail (operate f) ((new inline).reached f (before.filter (!·.hook)))
        (.step .enable :: after)
  guards : ∀ before during i c, .step .enable ∉ before →
    ((new inline).reached f before).workers[i]? = some ⟨c, none⟩ →
    (∀ op ∈ during, ¬ op.Leaves i) →
      (((new inline).reached f before).operate f (.step (.enter i))).1 =
        .answer (.ok (.flag false)) ∧
      ∃ c', ((new inline).reached f (before ++ .step (.enter i) :: during)).Inert f i c'

/-- Nothing is recorded before a service is switched on, and that happens once. -/
theorem enables_once (f : Flavour) (inline : InlineOutput) : EnablesOnce f inline := by
  have untouched {ops : List Operation} (never : .step .enable ∉ ops) :
      ((new inline).reached f ops).Untouched inline :=
    untouched_reached (armed_new inline) (untouched_new inline) never
  refine ⟨?_, ?_, ?_, ?_, ?_, ?_⟩
  · intro ops
    rw [switched_reached f inline ops, Option.isSome_iff_exists]
  · intro ops never
    refine ⟨untouched never, ?_⟩
    have printed : ((new inline).reached f ops).service.inline = inline := (untouched never).inline
    rw [operate, step_enable_off (untouched never).off]
    simp only [printed]
  · intro ops never job valid k
    exact job.unmoved_play f (untouched never).off valid k
  · intro ops mem
    obtain ⟨table, on⟩ :=
      exists_on_reached (f := f) (s := new inline) (Service.switched_new inline) mem
    exact ⟨⟨table, on⟩, by rw [operate, step_enable_on on.enabled]⟩
  · intro before after never
    rw [reached_hooks (untouched_new inline).off never]
  · intro before during i c never free kept
    obtain ⟨answer, opened⟩ := guardOf_enter_off (f := f) (untouched never).off free
    refine ⟨answer, ?_⟩
    have armed := armed_reached f inline before
    have stays : ((new inline).reached f (before ++ .step (.enter i) :: during)).guardOf i =
        some ⟨false⟩ := by
      rw [reached_append, reached_cons]
      exact guardOf_reached (armed_operate armed _) opened kept
    obtain ⟨⟨c', guard⟩, there, open'⟩ := guardOf_eq_some stays
    cases open'
    exact ⟨c', inert_of_guard (armed_reached f inline _) there⟩

end Session

end ArenaPeak
