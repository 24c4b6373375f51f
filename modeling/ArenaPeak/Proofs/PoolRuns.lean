import ArenaPeak.Proofs.ReplaySafety
import ArenaPeak.Replay.Pool

/-!
Whatever worker of a pool is picked when, the places of the trace that have been taken are those
below the shared index, each by one worker that has run it or still holds it. So when all workers
are done every compilation has been run exactly once, and the turns are a schedule. A worker that is
picked again and again is done at last, so a replay by a pool is a replay under some schedule.
-/

namespace ArenaPeak.Replay

variable {f : Flavour} {config : StatConfig}

/-- Turns one after the other, the last of them apart. -/
theorem play_snoc (p : Progress) (turns : List Turn) (t : Turn) :
    play f config p (turns ++ [t]) =
      (play f config p turns).bind fun p' => turn f config p' t := by
  induction turns generalizing p with
  | nil =>
      simp only [List.nil_append, play, Except.bind]
      cases turn f config p t <;> rfl
  | cons head turns ih =>
      rw [List.cons_append, play, play]
      cases turn f config p head with
      | error v => rfl
      | ok p₁ => exact ih p₁

namespace Stage

/-- What a worker has taken and not run yet. -/
def taken : Stage → List (TraceCompilation × Nat)
  | .holds entry => [entry]
  | .free | .done => []

/-- A worker that goes from one stage to another hands over what it had taken. -/
theorem taken_set {stages : List Stage} {i : Nat} {stage : Stage} (at_i : stages[i]? = some stage)
    (stage' : Stage) :
    (stage.taken ++ (stages.set i stage').flatMap taken).Perm
      (stage'.taken ++ stages.flatMap taken) := by
  induction stages generalizing i with
  | nil => cases at_i
  | cons head stages ih =>
      cases i with
      | zero =>
          obtain rfl : head = stage := by simpa using at_i
          simp only [List.set_cons_zero, List.flatMap_cons]
          exact List.perm_append_comm_assoc _ _ _
      | succ i =>
          have rest := ih (by simpa using at_i)
          simp only [List.set_cons_succ, List.flatMap_cons]
          refine (List.perm_append_comm_assoc _ _ _).trans ?_
          exact (rest.append_left _).trans (List.perm_append_comm_assoc _ _ _)

end Stage

namespace Pool

/-- What holds of a pool that was started with `n` workers on a site. -/
structure Sound (f : Flavour) (config : StatConfig) (t : Trace) (clock : Nat → Seconds)
    (site : Site) (n : Nat) (p : Pool) : Prop where
  played : play f config (.start site n) (p.turns clock) = .ok p.progress
  staffed : ∀ turn ∈ p.turns clock, turn.worker < n
  size : p.stages.length = n
  taken : (p.log.map (·.2) ++ p.stages.flatMap Stage.taken).Perm
    (t.compilations.zipIdx.take p.next)
  ended : .done ∈ p.stages → t.compilations.length ≤ p.next

theorem sound_start (f : Flavour) (config : StatConfig) (t : Trace) (clock : Nat → Seconds)
    (site : Site) (n : Nat) :
    (start site n).Sound f config t clock site n where
  played := rfl
  staffed := by simp [start, turns]
  size := by simp [start]
  taken := by
    have none : (List.replicate n Stage.free).flatMap Stage.taken = [] := by
      simp [List.flatMap_eq_nil_iff, Stage.taken]
    simp [start, none]
  ended mem := by
    have := (List.mem_replicate.mp mem).2
    cases this

variable {t : Trace} {clock : Nat → Seconds} {site : Site} {n : Nat} {p : Pool}

/-- Whatever is taken or run is a compilation of the trace. -/
theorem Sound.mem_trace (h : p.Sound f config t clock site n) {entry : TraceCompilation × Nat}
    (mem : entry ∈ p.log.map (·.2) ++ p.stages.flatMap Stage.taken) :
    entry.1 ∈ t.compilations := by
  have mem := List.mem_of_mem_take (h.taken.subset mem)
  exact List.fst_mem_of_mem_zipIdx mem

/-- Taking the place that the index is at. -/
theorem Sound.take (h : p.Sound f config t clock site n) {i : Nat}
    (free : p.stages[i]? = some .free) {entry : TraceCompilation × Nat}
    (next : t.compilations.zipIdx[p.next]? = some entry) :
    Sound f config t clock site n
      { p with next := p.next + 1, stages := p.stages.set i (.holds entry) } where
  played := h.played
  staffed := h.staffed
  size := by simp [h.size]
  taken := by
    have moved := Stage.taken_set free (.holds entry)
    rw [List.take_add_one, next]
    refine (moved.append_left (p.log.map (·.2))).trans ?_
    refine List.Perm.trans ?_ (h.taken.append_right [entry])
    rw [List.append_assoc]
    exact List.perm_append_comm.append_left (p.log.map (·.2))
  ended mem := by
    cases List.mem_or_eq_of_mem_set mem with
    | inl mem =>
        exact Nat.le_succ_of_le (h.ended mem)
    | inr eq =>
        cases eq

/-- Finding the index beyond the trace. -/
theorem Sound.leave (h : p.Sound f config t clock site n) {i : Nat}
    (free : p.stages[i]? = some .free) (beyond : t.compilations.length ≤ p.next) :
    Sound f config t clock site n
      { p with next := p.next + 1, stages := p.stages.set i .done } where
  played := h.played
  staffed := h.staffed
  size := by simp [h.size]
  taken := by
    have moved := Stage.taken_set free .done
    have whole : t.compilations.zipIdx.length ≤ p.next := by simpa using beyond
    rw [List.take_of_length_le (Nat.le_succ_of_le whole)]
    rw [← List.take_of_length_le whole]
    exact (moved.append_left (p.log.map (·.2))).trans h.taken
  ended _ := Nat.le_succ_of_le beyond

/-- What a worker holds is a compilation of the trace. -/
theorem Sound.mem_trace_of_holds (h : p.Sound f config t clock site n) {i : Nat}
    {entry : TraceCompilation × Nat} (holds : p.stages[i]? = some (.holds entry)) :
    entry.1 ∈ t.compilations := by
  refine h.mem_trace (List.mem_append_right _ (List.mem_flatMap.mpr ⟨.holds entry, ?_, ?_⟩))
  · exact List.mem_of_getElem? holds
  · simp [Stage.taken]

/-- Of a valid trace the turns that were taken, and one more, can be afforded. -/
theorem Sound.affordable (h : p.Sound f config t clock site n) (valid : t.validate = .ok ())
    {next : Turn} (mem : next.compilation ∈ t.compilations) :
    ∀ turn ∈ p.turns clock ++ [next], ∀ m, Trace.Affordable m turn.compilation.events := by
  intro turn inTurns
  refine Trace.affordable_of_validate valid ?_
  cases List.mem_append.mp inTurns with
  | inl old =>
      obtain ⟨logged, inLog, rfl⟩ := List.mem_map.mp old
      exact h.mem_trace (List.mem_append_left _ (List.mem_map_of_mem inLog))
  | inr new =>
      rw [List.mem_singleton.mp new]
      exact mem

/-- Running what the worker holds. -/
theorem Sound.runHeld (h : p.Sound f config t clock site n) (valid : t.validate = .ok ()) {i : Nat}
    {entry : TraceCompilation × Nat} (holds : p.stages[i]? = some (.holds entry)) :
    ∃ progress, turn f config p.progress ⟨i, entry.1, clock entry.2⟩ = .ok progress ∧
      Sound f config t clock site n
        { p with progress, stages := p.stages.set i .free, log := p.log ++ [(i, entry)] } := by
  have bound : i < n := by
    rw [← h.size]
    exact (List.getElem?_eq_some_iff.mp holds).1
  have staffed : ∀ turn ∈ p.turns clock ++ [⟨i, entry.1, clock entry.2⟩], turn.worker < n := by
    intro turn inTurns
    cases List.mem_append.mp inTurns with
    | inl old =>
        exact h.staffed turn old
    | inr new =>
        rw [List.mem_singleton.mp new]
        exact bound
  obtain ⟨progress, run, -⟩ := play_ok f config (Replay.sound_start site n)
    (by simpa using staffed) (h.affordable valid (h.mem_trace_of_holds holds))
  have turns : p.turns clock ++ [⟨i, entry.1, clock entry.2⟩] =
      Pool.turns clock ⟨progress, p.next, p.stages.set i .free, p.log ++ [(i, entry)]⟩ := by
    simp [Pool.turns]
  have step : turn f config p.progress ⟨i, entry.1, clock entry.2⟩ = .ok progress := by
    rw [play_snoc, h.played] at run
    exact run
  refine ⟨progress, step, ?_, ?_, ?_, ?_, ?_⟩
  · rw [turns] at run
    exact run
  · rw [turns] at staffed
    exact staffed
  · simp [h.size]
  · have moved := Stage.taken_set holds .free
    rw [List.map_append, List.append_assoc]
    exact (moved.append_left (p.log.map (·.2))).trans h.taken
  · intro done
    cases List.mem_or_eq_of_mem_set done with
    | inl done =>
        exact h.ended done
    | inr eq =>
        cases eq

theorem Sound.act (h : p.Sound f config t clock site n) (valid : t.validate = .ok ()) (i : Nat) :
    ∃ p', Pool.act f config t clock p i = .ok p' ∧ p'.Sound f config t clock site n := by
  cases stage : p.stages[i]? with
  | none => exact ⟨p, by simp only [Pool.act, stage], h⟩
  | some stage' =>
      cases stage' with
      | done => exact ⟨p, by simp only [Pool.act, stage], h⟩
      | free =>
          cases next : t.compilations.zipIdx[p.next]? with
          | none =>
              refine ⟨_, by simp only [Pool.act, stage, next], h.leave stage ?_⟩
              simpa using List.getElem?_eq_none_iff.mp next
          | some entry => exact ⟨_, by simp only [Pool.act, stage, next], h.take stage next⟩
      | holds entry =>
          obtain ⟨progress, step, sound⟩ := h.runHeld valid stage
          refine ⟨_, ?_, sound⟩
          simp only [Pool.act, stage, step]
          rfl

theorem Sound.run (h : p.Sound f config t clock site n) (valid : t.validate = .ok ())
    (picks : List Nat) :
    ∃ p', Pool.run f config t clock p picks = .ok p' ∧ p'.Sound f config t clock site n := by
  induction picks generalizing p with
  | nil => exact ⟨p, rfl, h⟩
  | cons i picks ih =>
      obtain ⟨p₁, step, sound⟩ := h.act valid i
      obtain ⟨p', rest, sound'⟩ := ih sound
      refine ⟨p', ?_, sound'⟩
      rw [Pool.run, step]
      exact rest

/-- When all workers are done, every place of the trace has been run exactly once. -/
theorem Sound.log_perm (h : p.Sound f config t clock site n) (pos : 0 < n) (finished : p.Finished) :
    (p.log.map (·.2)).Perm t.compilations.zipIdx := by
  have idle : p.stages.flatMap Stage.taken = [] := by
    refine List.flatMap_eq_nil_iff.mpr ?_
    intro stage mem
    rw [finished stage mem]
    rfl
  have done : .done ∈ p.stages := by
    have bound : 0 < p.stages.length := by
      rw [h.size]
      exact pos
    have mem := List.getElem_mem bound
    rwa [finished _ mem] at mem
  have whole : t.compilations.zipIdx.length ≤ p.next := by simpa using h.ended done
  have taken := h.taken
  rwa [idle, List.append_nil, List.take_of_length_le whole] at taken

theorem Sound.schedule (h : p.Sound f config t clock site n) (pos : 0 < n) (finished : p.Finished) :
    Schedule t n (p.turns clock) where
  complete := by
    have perm := (h.log_perm pos finished).map (·.1)
    have turns : (p.turns clock).map (·.compilation) = (p.log.map (·.2)).map (·.1) := by
      simp [Pool.turns, Function.comp_def]
    rw [turns]
    simpa using perm
  staffed := h.staffed

/-! ### Pools that finish -/

theorem run_append (p : Pool) (picks picks' : List Nat) :
    Pool.run f config t clock p (picks ++ picks') =
      (Pool.run f config t clock p picks).bind fun p' => Pool.run f config t clock p' picks' := by
  induction picks generalizing p with
  | nil => rfl
  | cons i picks ih =>
      rw [List.cons_append, Pool.run, Pool.run]
      cases Pool.act f config t clock p i with
      | error v => rfl
      | ok p₁ => exact ih p₁

/-- How often a worker has to be picked, at most, until there is nothing left for it to do. -/
def ahead (t : Trace) (p : Pool) (i : Nat) : Nat :=
  match p.stages[i]? with
  | some .free => 2 * (t.compilations.length - p.next) + 1
  | some (.holds _) => 2 * (t.compilations.length - p.next) + 2
  | some .done | none => 0

theorem ahead_le (t : Trace) (p : Pool) (i : Nat) :
    p.ahead t i ≤ 2 * t.compilations.length + 2 := by
  rw [ahead]
  split <;> omega

variable {p' : Pool} {i : Nat}

/-- A worker that is picked comes closer to its end. -/
theorem ahead_act (run : Pool.act f config t clock p i = .ok p') :
    p'.ahead t i ≤ p.ahead t i - 1 := by
  rw [Pool.act] at run
  cases stage : p.stages[i]? with
  | none =>
      rw [stage] at run
      cases run
      simp [ahead, stage]
  | some stage' =>
      have bound : i < p.stages.length := (List.getElem?_eq_some_iff.mp stage).1
      rw [stage] at run
      cases stage' with
      | done =>
          cases run
          simp [ahead, stage]
      | free =>
          cases next : t.compilations.zipIdx[p.next]? with
          | none =>
              simp only [next] at run
              cases run
              simp [ahead, bound]
          | some taken =>
              have more : p.next < t.compilations.length := by
                simpa using (List.getElem?_eq_some_iff.mp next).1
              simp only [next] at run
              cases run
              simp only [ahead, List.getElem?_set_self bound, stage]
              omega
      | holds taken =>
          simp only at run
          cases turned : turn f config p.progress ⟨i, taken.1, clock taken.2⟩ with
          | error v =>
              rw [turned] at run
              cases run
          | ok progress =>
              rw [turned] at run
              cases run
              simp only [ahead, List.getElem?_set_self bound, stage]
              omega

/-- A worker that is done stays so, whoever is picked. -/
theorem ahead_act_done {j : Nat} (done : p.ahead t i = 0)
    (run : Pool.act f config t clock p j = .ok p') : p'.ahead t i = 0 := by
  by_cases same : i = j
  · subst same
    have closer := ahead_act run
    omega
  · have stays : p'.stages[i]? = p.stages[i]? := by
      rw [Pool.act] at run
      split at run
      · split at run <;> cases run <;> exact List.getElem?_set_ne (Ne.symm same)
      · next taken stage =>
          cases turned : turn f config p.progress ⟨j, taken.1, clock taken.2⟩ with
          | error v =>
              rw [turned] at run
              cases run
          | ok progress =>
              rw [turned] at run
              cases run
              exact List.getElem?_set_ne (Ne.symm same)
      · cases run
        rfl
      · cases run
        rfl
    rw [ahead] at done ⊢
    rw [stays]
    split at done
    · exact absurd done (Nat.succ_ne_zero _)
    · exact absurd done (Nat.succ_ne_zero _)
    · rfl
    · rfl

theorem ahead_run_done (done : p.ahead t i = 0) {picks : List Nat}
    (run : Pool.run f config t clock p picks = .ok p') : p'.ahead t i = 0 := by
  induction picks generalizing p with
  | nil =>
      cases run
      exact done
  | cons j picks ih =>
      obtain ⟨p₁, acted, rest⟩ := exists_of_bind_eq_ok run
      exact ih (ahead_act_done done acted) rest

theorem ahead_run_replicate {k : Nat} (enough : p.ahead t i ≤ k)
    (run : Pool.run f config t clock p (List.replicate k i) = .ok p') : p'.ahead t i = 0 := by
  induction k generalizing p with
  | zero =>
      cases run
      exact Nat.le_zero.mp enough
  | succ k ih =>
      obtain ⟨p₁, acted, rest⟩ := exists_of_bind_eq_ok run
      have closer := ahead_act acted
      exact ih (by omega) rest

theorem ahead_run_flatMap {workers : List Nat} (mem : i ∈ workers)
    (run : Pool.run f config t clock p
      (workers.flatMap fun i => List.replicate (2 * t.compilations.length + 2) i) = .ok p') :
    p'.ahead t i = 0 := by
  induction workers generalizing p with
  | nil => cases mem
  | cons j workers ih =>
      rw [List.flatMap_cons, run_append] at run
      obtain ⟨p₁, first, rest⟩ := exists_of_bind_eq_ok run
      cases List.mem_cons.mp mem with
      | inl here =>
          subst here
          exact ahead_run_done (ahead_run_replicate (ahead_le t p i) first) rest
      | inr later => exact ih later rest

/-- The closing picks make an end of the work, whatever was picked before. -/
theorem Sound.finished_closing (h : p'.Sound f config t clock site n)
    (run : Pool.run f config t clock p (closing t.compilations.length n) = .ok p') :
    p'.Finished := by
  intro stage mem
  obtain ⟨i, bound, rfl⟩ := List.getElem_of_mem mem
  have inRange : i ∈ List.range n := by
    rw [List.mem_range, ← h.size]
    exact bound
  have done := ahead_run_flatMap inRange run
  rw [ahead, List.getElem?_eq_getElem bound] at done
  cases stage : p'.stages[i] with
  | done => rfl
  | free | holds taken =>
      rw [stage] at done
      cases done

theorem exists_finished (f : Flavour) (config : StatConfig) (clock : Nat → Seconds) (site : Site)
    (n : Nat) (valid : t.validate = .ok ()) (picks : List Nat) :
    ∃ p, Pool.run f config t clock (.start site n) (picks ++ closing t.compilations.length n) =
      .ok p ∧ p.Finished ∧ p.Sound f config t clock site n := by
  obtain ⟨p, run, h⟩ := (sound_start f config t clock site n).run valid picks
  obtain ⟨p', run', h'⟩ := h.run valid (closing t.compilations.length n)
  refine ⟨p', ?_, h'.finished_closing run', h'⟩
  rw [run_append, run]
  exact run'

end Pool

theorem workerCount_pos (threads compilations : Nat) : 0 < workerCount threads compilations := by
  rw [workerCount]
  omega

/-- A valid trace is replayed to its end, whoever is picked when. -/
theorem exists_replayed (f : Flavour) (config : StatConfig) (site : Site) (threads : UInt64)
    (course : Course) {t : Trace} (valid : t.validate = .ok ()) :
    ∃ outcome site', replay f config site t threads course = .ok (outcome, site') := by
  obtain ⟨p, run, -⟩ := Pool.exists_finished f config course.clock site
    (workerCount threads.toNat t.compilations.length) valid course.picks
  exact ⟨⟨t.compilations.length, p.progress.tracked⟩, p.progress.site,
    by simp only [replay, valid, run]⟩

/-- A replay by a pool is a replay under some schedule. -/
theorem exists_schedule_replay (f : Flavour) (config : StatConfig) (site : Site) (t : Trace)
    (threads : UInt64) (course : Course) :
    ∃ turns, Schedule t (workerCount threads.toNat t.compilations.length) turns ∧
      replay f config site t threads course =
        replayIn f config site t (workerCount threads.toNat t.compilations.length) turns := by
  cases valid : t.validate with
  | error fault =>
      refine ⟨inOrder t course.clock, schedule_inOrder t threads course.clock, ?_⟩
      simp only [replay, replayIn, valid]
  | ok _ =>
      obtain ⟨p, run, finished, h⟩ := Pool.exists_finished f config course.clock site
        (workerCount threads.toNat t.compilations.length) valid course.picks
      refine ⟨p.turns course.clock, h.schedule (workerCount_pos _ _) finished, ?_⟩
      simp only [replay, replayIn, valid, run, h.played]

end ArenaPeak.Replay
