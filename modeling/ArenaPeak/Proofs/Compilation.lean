import ArenaPeak.Proofs.Accounting
import ArenaPeak.Proofs.Hooks
import ArenaPeak.Proofs.Places
import ArenaPeak.Proofs.Totals
import ArenaPeak.Replay

/-!
One compilation on one worker, without its contracts. While the service is off only the method is
interned. While it is on every event is accounted, and as long as no event frees more than the
worker has allocated the compilation runs to its end; if its directive collects, the counter is
restarted before the events and one commit is made after them.
-/

namespace ArenaPeak

open Trace

/-- A method of which no more than the texts is meant. Patterns see no more of any method. -/
def Method.named (n : MethodName) : Method :=
  ⟨⟨0, n.owner⟩, ⟨0, n.name⟩, ⟨0, n.signature⟩⟩

theorem StatConfig.directiveFor_congr (config : StatConfig) {m m' : Method}
    (h : m.texts = m'.texts) : config.directiveFor m = config.directiveFor m' := by
  simp only [Method.texts, MethodName.mk.injEq] at h
  have alike (command : StatCommand) : command.applies m = command.applies m' := by
    simp [StatCommand.applies, MethodPattern.covers, h]
  simp [StatConfig.directiveFor, StatCommand.directiveFor, alike]

/-- No event frees more than there is by then, when `n` bytes are there at first. -/
def Trace.Affordable (n : Nat) : List TraceEvent → Prop
  | [] => True
  | e :: es =>
      0 ≤ (n : Int) + e.delta.toInt ∧ Affordable (min maxWord ((n : Int) + e.delta.toInt).toNat) es

theorem CompileTask.nodeSource_of_ne {t : CompileTask} (h : t.kind ≠ .c2) :
    t.nodeSource = none := by
  rw [nodeSource]
  split
  · next kind => exact absurd kind h
  · rfl

theorem CompileTask.nodeSource_c2 {t : CompileTask} (h : t.kind = .c2) : t.nodeSource = t.live := by
  simp only [nodeSource, h]

/-- No event frees too much where the exact bytes are never negative and fit a word. -/
theorem Trace.affordable_of_fits {es : List TraceEvent} {n : Nat}
    (nonneg : ∀ k ≤ es.length, 0 ≤ n + prefixSum es k)
    (fits : ∀ k ≤ es.length, n + prefixSum es k ≤ maxWord) : Affordable n es := by
  induction es generalizing n with
  | nil => trivial
  | cons e es ih =>
      have first : (moved (fun _ => true) n e : Int) = n + e.delta.toInt :=
        moved_eq (by simpa [prefixSum, sum] using nonneg 1 (by simp))
          (by simpa [prefixSum, sum] using fits 1 (by simp))
      have enough : 0 ≤ (n : Int) + e.delta.toInt := by
        rw [← first]
        exact Int.natCast_nonneg _
      have later (k : Nat) : n + prefixSum (e :: es) (k + 1) =
          (moved (fun _ => true) n e : Nat) + prefixSum es k := by
        rw [first, prefixSum_cons, ← Int.add_assoc]
      refine ⟨enough, ih ?_ ?_⟩
      · intro k hk
        exact later k ▸ nonneg (k + 1) (by simpa using hk)
      · intro k hk
        exact later k ▸ fits (k + 1) (by simpa using hk)

namespace Context

/-- The context after the live nodes that an event reports. -/
def hear (ctx : Context) (e : TraceEvent) : Context :=
  match e.liveNodes with
  | some n => ctx.setLive n
  | none => ctx

/-- The context after an event that violates no contract, while the service is on. -/
def after (ctx : Context) (e : TraceEvent) : Context :=
  { ctx.hear e with
    counter := ctx.counter.add e.delta e.tag ((ctx.hear e).task.bind (·.nodeSource)) }

variable (ctx : Context) (e : TraceEvent) (es : List TraceEvent)

@[simp]
theorem hear_counter : (ctx.hear e).counter = ctx.counter := by
  rw [hear]
  split <;> rfl

@[simp]
theorem hear_thread : (ctx.hear e).thread = ctx.thread := by
  rw [hear]
  split <;> rfl

theorem hear_task :
    (ctx.hear e).task =
      ctx.task.map fun t => { t with live := t.live.map fun n => e.liveNodes.getD n } := by
  rw [hear]
  cases e.liveNodes <;> cases h : ctx.task <;> simp [setLive, h, CompileTask.setLive]

theorem clearTask_hear : (ctx.hear e).clearTask = ctx.clearTask := by
  simp [clearTask]

/-! ### The context after a list of events -/

@[simp]
theorem foldl_after_thread : (es.foldl after ctx).thread = ctx.thread := by
  induction es generalizing ctx with
  | nil => rfl
  | cons e es ih => simp [ih, after]

theorem foldl_after_task :
    (es.foldl after ctx).task = ctx.task.map fun t =>
      { t with live := t.live.map fun n => es.foldl (fun n e => e.liveNodes.getD n) n } := by
  induction es generalizing ctx with
  | nil => simp
  | cons e es ih =>
      rw [List.foldl_cons, ih]
      simp [after, hear_task, Function.comp_def]

@[simp]
theorem foldl_after_start : (es.foldl after ctx).counter.start = ctx.counter.start := by
  induction es generalizing ctx with
  | nil => rfl
  | cons e es ih => simp [ih, after]

theorem foldl_after_current :
    (es.foldl after ctx).counter.current.toNat =
      level (fun _ => true) ctx.counter.current.toNat es := by
  induction es generalizing ctx with
  | nil => rfl
  | cons e es ih => simp [ih, after, level, moved, shift_toNat]

theorem foldl_after_node :
    (es.foldl after ctx).counter.node.toNat = level (· == .node) ctx.counter.node.toNat es := by
  induction es generalizing ctx with
  | nil => rfl
  | cons e es ih =>
      rw [List.foldl_cons, ih]
      by_cases h : e.tag = .node <;> simp [after, level, moved, shift_toNat, h]

theorem foldl_after_resource :
    (es.foldl after ctx).counter.resource.toNat =
      level (· == .resource) ctx.counter.resource.toNat es := by
  induction es generalizing ctx with
  | nil => rfl
  | cons e es ih =>
      rw [List.foldl_cons, ih]
      by_cases h : e.tag = .resource <;> simp [after, level, moved, shift_toNat, h]

variable {ctx}

theorem sound_foldl_after (h : ctx.counter.Sound) : (es.foldl after ctx).counter.Sound := by
  induction es generalizing ctx with
  | nil => exact h
  | cons e es ih => exact ih (PeakCounter.sound_add _ _ _ h)

end Context

namespace Replay

variable (f : Flavour) {s : Service} {ctx : Context}

/-! ### Playing events -/

theorem playEvent_eq (on : s.enabled = true) (sound : ctx.counter.Sound) {e : TraceEvent}
    (enough : 0 ≤ ctx.counter.current.toNat + e.delta.toInt) :
    playEvent f s ctx e = .ok (ctx.after e) := by
  have accounted := PeakCounter.account_eq ctx.counter e.delta e.tag
    ((ctx.hear e).task.bind (·.nodeSource)) f sound.current_le enough
  change Except.bind (Guard.arena f s (ctx.hear e) e.delta e.tag) _ = _
  rw [Guard.arena_on f on, Context.account]
  simp [bind, Except.bind, accounted, pure, Except.pure, Context.after]

theorem playEvents_eq (on : s.enabled = true) (sound : ctx.counter.Sound) {es : List TraceEvent}
    (enough : Affordable ctx.counter.current.toNat es) :
    playEvents f s ctx es = .ok (es.foldl Context.after ctx) := by
  induction es generalizing ctx with
  | nil => rfl
  | cons e es ih =>
      rw [playEvents, playEvent_eq f on sound enough.1]
      refine ih (PeakCounter.sound_add _ _ _ sound) ?_
      simpa [Context.after, shift_toNat] using enough.2

theorem playEvents_off (off : s.enabled = false) (ctx : Context) (es : List TraceEvent) :
    ∃ ctx', playEvents f s ctx es = .ok ctx' ∧ ctx'.clearTask = ctx.clearTask := by
  induction es generalizing ctx with
  | nil => exact ⟨ctx, rfl, rfl⟩
  | cons e es ih =>
      have played : playEvent f s ctx e = .ok (ctx.hear e) := by
        change Except.bind (Guard.arena f s (ctx.hear e) e.delta e.tag) _ = _
        simp [Guard.arena_off f off, Except.bind, pure, Except.pure]
      obtain ⟨ctx', rest, same⟩ := ih (ctx.hear e)
      refine ⟨ctx', ?_, same.trans (ctx.clearTask_hear e)⟩
      rw [playEvents, played]
      exact rest

/-! ### A compilation from beginning to end -/

variable (config : StatConfig) (site : Site) (ctx : Context) (c : TraceCompilation)

/-- The method a compilation is recorded under, and the symbols once that is interned. -/
def interned : Method × SymbolStore :=
  site.symbols.internMethod (ctx.held ++ site.held) 0 (nameOf c)

/-- The directive a compilation runs under while the service is on. -/
def effective : Directive :=
  c.directive.getD (config.directiveFor (.named (nameOf c)))

/-- Whether a compilation is tracked while the service is on. -/
def tracks : Bool :=
  (effective config c).collects

/-- The task a compilation runs as, with the live nodes it reports last. -/
def taskOf : CompileTask :=
  ⟨(interned site ctx c).1, c.compiler, effective config c, some (lastLive c.events)⟩

/-- The context before the first event. -/
def begun : Context :=
  let ctx' := ctx.setTask { taskOf config site ctx c with live := some 0 }
  if tracks config c then ctx'.startEpisode else ctx'

/-- The context after the last event. -/
def ended : Context :=
  c.events.foldl Context.after (begun config site ctx c)

variable (time : Seconds)

/-- What the compilation commits if it is tracked. -/
def commitOf : Commit :=
  Service.commitOf (ended config site ctx c) (taskOf config site ctx c) time

/-- The site after the compilation, in whose table `table` are the records before it. -/
def left (table : StatTable) : Site :=
  if tracks config c then
    { site with
      service :=
        site.service.commit f table (ended config site ctx c) (taskOf config site ctx c) time
      symbols := (interned site ctx c).2.pinMethod (interned site ctx c).1 }
  else
    { site with symbols := (interned site ctx c).2 }

theorem left_symbols (table : StatTable) (tracked : tracks config c = true) :
    (left f config site ctx c time table).symbols =
      (interned site ctx c).2.pinMethod (interned site ctx c).1 := by
  simp only [left, if_pos tracked]

theorem left_on {table : StatTable} (on : site.service.On table)
    (tracked : tracks config c = true) :
    (left f config site ctx c time table).service.On
      (table.upsert (interned site ctx c).1 (commitOf config site ctx c time)) := by
  simp only [left, if_pos tracked]
  exact Service.commit_on f on _ _ time

theorem left_untracked (table : StatTable) (untracked : ¬ tracks config c = true) :
    left f config site ctx c time table = { site with symbols := (interned site ctx c).2 } := by
  rw [left, if_neg untracked]

theorem begun_counter :
    (begun config site ctx c).counter =
      if tracks config c then ctx.counter.restart else ctx.counter := by
  rw [begun]
  split <;> rfl

theorem begun_current : (begun config site ctx c).counter.current = ctx.counter.current := by
  rw [begun_counter]
  split <;> rfl

theorem begun_task :
    (begun config site ctx c).task = some { taskOf config site ctx c with live := some 0 } := by
  rw [begun]
  split <;> rfl

theorem ended_task : (ended config site ctx c).task = some (taskOf config site ctx c) := by
  rw [ended, Context.foldl_after_task, begun_task]
  rfl

theorem ended_thread : (ended config site ctx c).thread = ctx.thread := by
  rw [ended, Context.foldl_after_thread, begun]
  split <;> rfl

/-- A compilation enters a guard, plays its events and drops the guard. -/
theorem compileOne_bind :
    compileOne f config site ctx c time =
      (Guard.enter f site.service (ctx.setTask ⟨(interned site ctx c).1, c.compiler,
        directiveOf site.service config c (interned site ctx c).1, some 0⟩)).bind fun entered =>
      (playEvents f site.service entered.2 c.events).bind fun ctx' =>
      (entered.1.drop f site.service (interned site ctx c).2 ctx' time).bind fun dropped =>
      .ok (entered.1.active, { site with service := dropped.1, symbols := dropped.2 },
        ctx'.clearTask) :=
  rfl

variable {config site ctx c}

theorem sound_begun (h : ctx.counter.Sound) : (begun config site ctx c).counter.Sound := by
  rw [begun_counter]
  split
  · exact PeakCounter.sound_restart _
  · exact h

theorem directiveOf_on (on : site.service.enabled = true) :
    directiveOf site.service config c (interned site ctx c).1 = effective config c := by
  rw [directiveOf, on, if_pos rfl, effective]
  congr 1
  exact config.directiveFor_congr (SymbolStore.internMethod_texts _ _ _ _)

/-- While the switch is on a compilation comes to its end, and whether it can be ended is all that
there is to it. -/
theorem compileOne_enabled (enabled : site.service.enabled = true)
    (sound : (begun config site ctx c).counter.Sound)
    (enough : Affordable ctx.counter.current.toNat c.events) (time : Seconds) :
    compileOne f config site ctx c time =
      (Guard.drop f ⟨tracks config c⟩ site.service (interned site ctx c).2
        (ended config site ctx c) time).bind fun dropped =>
      .ok (tracks config c, { site with service := dropped.1, symbols := dropped.2 },
        (ended config site ctx c).clearTask) := by
  have enters : Guard.tracks site.service
      (ctx.setTask { taskOf config site ctx c with live := some 0 }) = tracks config c := by
    simp [Guard.tracks, enabled, Context.setTask, taskOf, tracks]
  have entered : Guard.enter f site.service
      (ctx.setTask { taskOf config site ctx c with live := some 0 }) =
        .ok (⟨tracks config c⟩, begun config site ctx c) := by
    rw [Guard.enter_eq, enters]
    rfl
  have played : playEvents f site.service (begun config site ctx c) c.events =
      .ok (ended config site ctx c) :=
    playEvents_eq f enabled sound (by rwa [begun_current])
  rw [compileOne_bind, directiveOf_on enabled]
  change Except.bind (Guard.enter f site.service
    (ctx.setTask { taskOf config site ctx c with live := some 0 })) _ = _
  rw [entered]
  simp only [Except.bind, played]

theorem compileOne_on {table : StatTable} (on : site.service.On table)
    (sound : (begun config site ctx c).counter.Sound)
    (enough : Affordable ctx.counter.current.toNat c.events) (time : Seconds) :
    compileOne f config site ctx c time =
      .ok (tracks config c, left f config site ctx c time table,
        (ended config site ctx c).clearTask) := by
  have dropped : Guard.drop f ⟨tracks config c⟩ site.service (interned site ctx c).2
      (ended config site ctx c) time =
        .ok ((left f config site ctx c time table).service,
          (left f config site ctx c time table).symbols) := by
    rw [left, Guard.drop]
    by_cases h : tracks config c = true
    · simp only [h, if_true]
      exact Service.finish_on f on (ended_task config site ctx c) h _ time
    · simp [h]
  rw [compileOne_enabled f on.enabled sound enough time, dropped, left]
  split <;> rfl

/-- Where the switch is on without a table, a compilation is tracked and commits nothing. -/
theorem compileOne_bare (enabled : site.service.enabled = true) (none : site.service.table = none)
    (sound : (begun config site ctx c).counter.Sound)
    (enough : Affordable ctx.counter.current.toNat c.events) (time : Seconds) :
    compileOne f config site ctx c time =
      .ok (tracks config c, { site with symbols := (interned site ctx c).2 },
        (ended config site ctx c).clearTask) := by
  have dropped : Guard.drop f ⟨tracks config c⟩ site.service (interned site ctx c).2
      (ended config site ctx c) time = .ok (site.service, (interned site ctx c).2) := by
    rw [Guard.drop]
    split
    · simp [Service.finish, enabled, none, Flavour.assert_true, bind, Except.bind, pure,
        Except.pure]
    · rfl
  rw [compileOne_enabled f enabled sound enough time, dropped]
  rfl

theorem compileOne_off (off : site.service.enabled = false) (time : Seconds) :
    compileOne f config site ctx c time =
      .ok (false, { site with symbols := (interned site ctx c).2 }, ctx.clearTask) := by
  obtain ⟨ctx', played, same⟩ := playEvents_off f off
    (ctx.setTask ⟨(interned site ctx c).1, c.compiler,
      directiveOf site.service config c (interned site ctx c).1, some 0⟩) c.events
  rw [compileOne_bind, Guard.enter_eq]
  simp only [Guard.tracks, off, Bool.false_and, Bool.false_eq_true, if_false, Except.bind, played,
    Guard.drop, same]
  rfl

end Replay

end ArenaPeak
