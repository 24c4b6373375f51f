import ArenaPeak.Proofs.Categories
import ArenaPeak.Proofs.MuteOutput
import ArenaPeak.Proofs.PoolRuns
import ArenaPeak.Proofs.Registry

/-!
Replays by one worker. In a pool of any size the first worker may take every compilation, and then
the pool comes to what a pool of one worker comes to; a pool of one worker has no choice. So where
the outcome of a trace does not depend on which worker acts when, it is that of one worker. What one
worker prints goes through the trace from its beginning to its end, and its records show one thread.
-/

namespace ArenaPeak

/-- Two results that show the same fail alike, or come to values that show the same. -/
theorem map_eq_map {ε α β : Type} {g : α → β} {a b : Except ε α} (h : a.map g = b.map g) :
    (∃ e, a = .error e ∧ b = .error e) ∨ ∃ x y, a = .ok x ∧ b = .ok y ∧ g x = g y := by
  cases a with
  | error e =>
      cases b with
      | error e' =>
          cases h
          exact .inl ⟨e, rfl, rfl⟩
      | ok y => cases h
  | ok x =>
      cases b with
      | error e' => cases h
      | ok y => exact .inr ⟨x, y, rfl, rfl, Except.ok.inj h⟩

namespace Replay

variable {f : Flavour} {config : StatConfig} {t : Trace} {clock : Nat → Seconds} {site : Site}
variable {n : Nat}

/-! ### Turns of the first worker -/

/-- How many threads there have been plays no part in a compilation. -/
theorem compileOne_renumbered (f : Flavour) (config : StatConfig) (site : Site) (ctx : Context)
    (c : TraceCompilation) (time : Seconds) (nextThread : ThreadId) :
    compileOne f config { site with nextThread } ctx c time =
      (compileOne f config site ctx c time).map fun r =>
        (r.1, { r.2.1 with nextThread }, r.2.2) := by
  rw [compileOne_bind, compileOne_bind]
  refine bind_eq_map fun entered => bind_eq_map fun ctx' => bind_eq_map fun dropped => ?_
  rfl

/-- What the first worker has to do with. -/
def Progress.first (p : Progress) : (Service × SymbolStore × List Symbol) × Option Context × Nat :=
  ((p.site.service, p.site.symbols, p.site.outside), p.workers[0]?, p.tracked)

theorem first_turn (f : Flavour) (config : StatConfig) {p p' : Progress}
    (same : p.first = p'.first) (c : TraceCompilation) (time : Seconds) :
    (turn f config p ⟨0, c, time⟩).map Progress.first =
      (turn f config p' ⟨0, c, time⟩).map Progress.first := by
  obtain ⟨⟨service, symbols, outside, next⟩, workers, tracked⟩ := p
  obtain ⟨⟨service', symbols', outside', next'⟩, workers', tracked'⟩ := p'
  obtain ⟨⟨rfl, rfl, rfl⟩, worker, rfl⟩ : (service = service' ∧ symbols = symbols' ∧
      outside = outside') ∧ workers[0]? = workers'[0]? ∧ tracked = tracked' := by
    simpa [Progress.first] using same
  cases there : workers[0]? with
  | none => simp only [turn, there, ← worker, Except.map, Progress.first]
  | some ctx =>
      have there' : workers'[0]? = some ctx := worker.symm.trans there
      have renumbered := compileOne_renumbered f config ⟨service, symbols, outside, next⟩ ctx c time
        next'
      simp only [turn, there, there', renumbered]
      cases compileOne f config ⟨service, symbols, outside, next⟩ ctx c time with
      | error v => rfl
      | ok r =>
          have kept (l : List Context) (first : l[0]? = some ctx) :
              (l.set 0 r.2.2)[0]? = some r.2.2 :=
            List.getElem?_set_self (List.getElem?_eq_some_iff.mp first).1
          change Except.ok _ = Except.ok _
          rw [Progress.first, Progress.first, kept workers there, kept workers' there']

theorem first_play (f : Flavour) (config : StatConfig) {p p' : Progress}
    (same : p.first = p'.first) {turns : List Turn} (own : ∀ turn ∈ turns, turn.worker = 0) :
    (play f config p turns).map Progress.first = (play f config p' turns).map Progress.first := by
  induction turns generalizing p p' with
  | nil => exact congrArg Except.ok same
  | cons head turns ih =>
      obtain ⟨i, c, time⟩ := head
      rw [List.forall_mem_cons] at own
      obtain ⟨rfl, own⟩ : i = 0 ∧ _ := own
      rw [play, play]
      cases map_eq_map (first_turn f config same c time) with
      | inl failed =>
          obtain ⟨v, run, run'⟩ := failed
          rw [run, run']
      | inr turned =>
          obtain ⟨p₁, p₁', run, run', same⟩ := turned
          rw [run, run']
          exact ih same own

theorem first_start (site : Site) (pos : 0 < n) :
    (Progress.start site n).first = (Progress.start site 1).first := by
  obtain ⟨m, rfl⟩ := Nat.exists_eq_succ_of_ne_zero pos.ne'
  simp [Progress.first, Progress.start, freshWorkers]

theorem own_inOrder (t : Trace) (clock : Nat → Seconds) :
    ∀ turn ∈ inOrder t clock, turn.worker = 0 := by
  intro turn mem
  obtain ⟨entry, -, rfl⟩ := List.mem_map.mp mem
  rfl

/-- What is shown of the service after a replay. -/
def shownBy {α : Type} (shown : Service → α) (r : Except Failure (Outcome × Site)) :
    Except Failure (Outcome × α) :=
  r.map fun r => (r.1, shown r.2.service)

/-- Workers beyond the first make no difference to a replay in the order of the trace. -/
theorem replayIn_inOrder {α : Type} (f : Flavour) (config : StatConfig) (site : Site) (t : Trace)
    (clock : Nat → Seconds) (pos : 0 < n) (shown : Service → α) :
    shownBy shown (replayIn f config site t n (inOrder t clock)) =
      shownBy shown (replayIn f config site t 1 (inOrder t clock)) := by
  rw [replayIn, replayIn]
  cases t.validate with
  | error fault => rfl
  | ok _ =>
      have same := first_play f config (first_start site pos) (own_inOrder t clock)
      cases map_eq_map same with
      | inl failed =>
          obtain ⟨v, run, run'⟩ := failed
          rw [run, run']
      | inr played =>
          obtain ⟨p, p', run, run', same⟩ := played
          obtain ⟨⟨service, -⟩, -, tracked⟩ : (p.site.service = p'.site.service ∧ _) ∧ _ ∧
              p.tracked = p'.tracked := by
            simpa [Progress.first] using same
          simp only [run, run', shownBy, Except.map, service, tracked]

/-! ### Pools -/

namespace Pool

variable {p : Pool}

/-- The first worker has taken and run the compilations up to some place of the trace. -/
structure Led (t : Trace) (clock : Nat → Seconds) (n k : Nat) (p : Pool) : Prop where
  next : p.next = k
  free : p.stages = List.replicate n .free
  turns : p.turns clock = (inOrder t clock).take k

/-- The first worker takes the next compilation and runs it. -/
theorem Led.step {k : Nat} (led : Led t clock n k p) (h : p.Sound f config t clock site n)
    (valid : t.validate = .ok ()) (pos : 0 < n) (more : k < t.compilations.length) :
    ∃ p', Pool.run f config t clock p [0, 0] = .ok p' ∧ p'.Sound f config t clock site n ∧
      Led t clock n (k + 1) p' := by
  have taken : t.compilations.zipIdx[p.next]? = some (t.compilations[k], k) := by
    rw [led.next]
    simp [more]
  have free : p.stages[0]? = some .free := by
    rw [led.free]
    simp [pos]
  have first : act f config t clock p 0 = .ok { p with
      next := p.next + 1, stages := p.stages.set 0 (.holds (t.compilations[k], k)) } := by
    simp only [act, free, taken]
  have held := h.take free taken
  have holds : (p.stages.set 0 (.holds (t.compilations[k], k)))[0]? =
      some (.holds (t.compilations[k], k)) :=
    List.getElem?_set_self (List.getElem?_eq_some_iff.mp free).1
  obtain ⟨progress, run, sound⟩ := held.runHeld valid holds
  refine ⟨_, ?_, sound, ⟨congrArg (· + 1) led.next, ?_, ?_⟩⟩
  · rw [Pool.run, first]
    change (act f config t clock _ 0).bind _ = _
    simp only [act, holds, run]
    rfl
  · rw [List.set_set, led.free]
    obtain ⟨m, rfl⟩ := Nat.exists_eq_succ_of_ne_zero pos.ne'
    rfl
  · have last : (inOrder t clock)[k]? = some ⟨0, t.compilations[k], clock k⟩ := by
      simp [inOrder, more]
    rw [Pool.turns, List.map_append, List.take_add_one, last, ← led.turns]
    rfl

theorem Led.run {k : Nat} (led : Led t clock n k p) (h : p.Sound f config t clock site n)
    (valid : t.validate = .ok ()) (pos : 0 < n) (m : Nat) (more : k + m ≤ t.compilations.length) :
    ∃ p', Pool.run f config t clock p (List.replicate (2 * m) 0) = .ok p' ∧
      p'.Sound f config t clock site n ∧ Led t clock n (k + m) p' := by
  induction m generalizing p k with
  | zero => exact ⟨p, rfl, h, led⟩
  | succ m ih =>
      obtain ⟨p₁, first, sound₁, led₁⟩ := led.step h valid pos (by omega)
      obtain ⟨p', rest, sound, led'⟩ := ih led₁ sound₁ (by omega)
      refine ⟨p', ?_, sound, by rwa [Nat.add_right_comm] at led'⟩
      have picks : List.replicate (2 * (m + 1)) 0 = [0, 0] ++ List.replicate (2 * m) 0 := rfl
      rw [picks, run_append, first]
      exact rest

/-- The trace is at its end and no worker holds any of it. -/
structure Spent (t : Trace) (p : Pool) : Prop where
  past : t.compilations.length ≤ p.next
  idle : ∀ stage ∈ p.stages, stage = .free ∨ stage = .done

/-- Then a worker that is picked finds nothing to do. -/
theorem Spent.act (f : Flavour) (config : StatConfig) (clock : Nat → Seconds) (spent : Spent t p)
    (i : Nat) :
    ∃ p', Pool.act f config t clock p i = .ok p' ∧ Spent t p' ∧ p'.progress = p.progress := by
  have beyond : t.compilations.zipIdx[p.next]? = none := by simpa using spent.past
  cases stage : p.stages[i]? with
  | none => exact ⟨p, by simp only [Pool.act, stage], spent, rfl⟩
  | some stage' =>
      cases spent.idle stage' (List.mem_of_getElem? stage) with
      | inl free =>
          subst free
          refine ⟨{ p with next := p.next + 1, stages := p.stages.set i .done },
            by simp only [Pool.act, stage, beyond], ⟨Nat.le_succ_of_le spent.past, ?_⟩, rfl⟩
          intro s mem
          cases List.mem_or_eq_of_mem_set mem with
          | inl old => exact spent.idle s old
          | inr new => exact .inr new
      | inr done =>
          subst done
          exact ⟨p, by simp only [Pool.act, stage], spent, rfl⟩

/-- No picks make a difference then to what has been done. -/
theorem Spent.run (f : Flavour) (config : StatConfig) (clock : Nat → Seconds) (spent : Spent t p)
    (picks : List Nat) :
    ∃ p', Pool.run f config t clock p picks = .ok p' ∧ p'.progress = p.progress := by
  induction picks generalizing p with
  | nil => exact ⟨p, rfl, rfl⟩
  | cons i picks ih =>
      obtain ⟨p₁, acted, spent₁, same₁⟩ := spent.act f config clock i
      obtain ⟨p', run, same⟩ := ih spent₁
      refine ⟨p', ?_, same.trans same₁⟩
      rw [Pool.run, acted]
      exact run

/-- However many workers there are, the first of them may take all compilations. -/
theorem exists_led (f : Flavour) (config : StatConfig) (clock : Nat → Seconds) (site : Site)
    (valid : t.validate = .ok ()) (pos : 0 < n) (picks : List Nat) :
    ∃ p, Pool.run f config t clock (.start site n)
        (List.replicate (2 * t.compilations.length) 0 ++ picks) = .ok p ∧
      play f config (.start site n) (inOrder t clock) = .ok p.progress := by
  have start : Led t clock n 0 (start site n) := ⟨rfl, rfl, rfl⟩
  obtain ⟨p, run, sound, led⟩ :=
    start.run (sound_start f config t clock site n) valid pos t.compilations.length (by simp)
  rw [Nat.zero_add] at led
  have spent : Spent t p := by
    refine ⟨led.next.ge, fun stage mem => .inl ?_⟩
    rw [led.free] at mem
    exact (List.mem_replicate.mp mem).2
  obtain ⟨p', run', progress⟩ := spent.run f config clock picks
  refine ⟨p', ?_, ?_⟩
  · rw [run_append, run]
    exact run'
  · have all : p.turns clock = inOrder t clock := by
      rw [led.turns, List.take_of_length_le (by simp [inOrder])]
    rw [progress, ← all]
    exact sound.played

/-- In a pool of one worker nobody else is there to be picked. -/
theorem run_of_one (size : p.stages.length = 1) (h : p.Sound f config t clock site n)
    (valid : t.validate = .ok ()) (picks : List Nat) :
    Pool.run f config t clock p picks =
      Pool.run f config t clock p (List.replicate (picks.count 0) 0) := by
  induction picks generalizing p with
  | nil => rfl
  | cons i picks ih =>
      obtain ⟨p₁, acted, sound⟩ := h.act valid i
      have rest := ih (p := p₁) (by rw [sound.size, ← h.size, size]) sound
      by_cases first : i = 0
      · subst first
        rw [List.count_cons_self, List.replicate_succ, Pool.run, Pool.run, acted]
        exact rest
      · have gone : p.stages[i]? = none := List.getElem?_eq_none (by omega)
        have same : act f config t clock p i = .ok p := by simp only [act, gone]
        cases same.symm.trans acted
        rw [List.count_cons_of_ne (by simpa using first), Pool.run, same]
        exact rest

end Pool

theorem closing_eq (c : Nat) (pos : 0 < n) :
    ∃ picks, Pool.closing c n = List.replicate (2 * c) 0 ++ picks := by
  obtain ⟨m, rfl⟩ := Nat.exists_eq_succ_of_ne_zero pos.ne'
  refine ⟨List.replicate 2 0 ++ ((List.range m).map Nat.succ).flatMap fun i =>
    List.replicate (2 * c + 2) i, ?_⟩
  rw [Pool.closing, List.range_succ_eq_map, List.flatMap_cons, List.replicate_add,
    List.append_assoc]

variable (f : Flavour) (config : StatConfig) (site : Site) (t : Trace)

/-- With nobody picked before, the first worker takes all compilations. -/
theorem replay_led (threads : UInt64) (clock : Nat → Seconds) :
    replay f config site t threads ⟨[], clock⟩ =
      replayIn f config site t (workerCount threads.toNat t.compilations.length)
        (inOrder t clock) := by
  have pos := workerCount_pos threads.toNat t.compilations.length
  rw [replay, replayIn]
  cases valid : t.validate with
  | error fault => rfl
  | ok _ =>
      obtain ⟨picks, closing⟩ := closing_eq t.compilations.length pos
      obtain ⟨p, run, played⟩ := Pool.exists_led f config clock site valid pos picks
      simp only [List.nil_append, closing, run, played]

/-- One worker takes all compilations, whoever is picked when. -/
theorem replay_single {threads : UInt64}
    (one : workerCount threads.toNat t.compilations.length = 1) (course : Course) :
    replay f config site t threads course =
      replayIn f config site t 1 (inOrder t course.clock) := by
  rw [replay, replayIn, one]
  cases valid : t.validate with
  | error fault => rfl
  | ok _ =>
      obtain ⟨picks, closing⟩ := closing_eq t.compilations.length Nat.one_pos
      have enough : 2 * t.compilations.length ≤
          (course.picks ++ Pool.closing t.compilations.length 1).count 0 := by
        rw [closing, List.count_append, List.count_append, List.count_replicate_self]
        omega
      obtain ⟨k, count⟩ := Nat.exists_eq_add_of_le enough
      obtain ⟨p, run, played⟩ :=
        Pool.exists_led f config course.clock site valid Nat.one_pos (List.replicate k 0)
      rw [← List.replicate_add, ← count,
        ← Pool.run_of_one (by simp [Pool.start]) (Pool.sound_start f config t _ site 1) valid]
        at run
      simp only [run, played]

theorem workerCount_one (compilations : Nat) : workerCount (1 : UInt64).toNat compilations = 1 := by
  simp only [workerCount, UInt64.reduceToNat]
  omega

variable {f config site t} {α : Type} {shown : Service → α}

/-- What is shown of the service after a replay does not depend on which worker acts when. -/
def Indifferent (f : Flavour) (config : StatConfig) (site : Site) (t : Trace) (threads : UInt64)
    (clock : Nat → Seconds) (shown : Service → α) : Prop :=
  ∀ picks picks', shownBy shown (replay f config site t threads ⟨picks, clock⟩) =
    shownBy shown (replay f config site t threads ⟨picks', clock⟩)

/-- Where nothing depends on which worker acts when, a pool comes to what one worker comes to. -/
theorem Indifferent.shown_eq {threads : UInt64} {course : Course}
    (indifferent : Indifferent f config site t threads course.clock shown) :
    shownBy shown (replay f config site t threads course) =
      shownBy shown (replay f config site t 1 course) := by
  rw [indifferent course.picks [], replay_led, replay_single f config site t (workerCount_one _)]
  exact replayIn_inOrder f config site t course.clock (workerCount_pos _ _) shown

end Replay

/-! ### Threads -/

namespace StatRecord

/-- The record with the first thread in place of the one that it shows. -/
def anonymous (r : StatRecord) : StatRecord :=
  { r with thread := r.thread.map fun _ => .first }

end StatRecord

namespace Service

/-- The service with the first thread in place of all that its records show. -/
def anonymous (s : Service) : Service :=
  { s with table := s.table.map fun t => ⟨t.records.map (·.anonymous)⟩ }

/-- No record shows a thread but the first. -/
def SoleThread (s : Service) : Prop :=
  ∀ t, s.table = some t → ∀ r ∈ t.records, r.anonymous = r

theorem SoleThread.anonymous_eq {s : Service} (h : s.SoleThread) : s.anonymous = s := by
  obtain ⟨enabled, table, inline⟩ := s
  cases table with
  | none => rfl
  | some t =>
      have same : t.records.map (·.anonymous) = t.records :=
        (List.map_congr_left (h t rfl)).trans (List.map_id _)
      simp [anonymous, same]

theorem SoleThread.upsert {t : StatTable} (h : ∀ r ∈ t.records, r.anonymous = r)
    (m : Method) {c : Commit} (one : c.thread = .first) :
    ∀ r ∈ (t.upsert m c).records, r.anonymous = r := by
  intro r mem
  cases StatTable.mem_upsertIn_cases mem with
  | inl old => exact h r old
  | inr applied =>
      obtain ⟨r', rfl, -⟩ := applied
      simp [StatRecord.anonymous, StatRecord.apply, one]

end Service

namespace Replay

variable {f : Flavour} {config : StatConfig} {t : Trace} {site site' : Site} {outcome : Outcome}

/-- The line of a compilation, whatever its numbers are. -/
def LineOf (f : Flavour) (c : TraceCompilation) (line : String) : Prop :=
  ∃ counter : PeakCounter, line = c.compiler.name ++ " Arena usage " ++
    (Method.named (nameOf c)).display ++ ": " ++ counter.display f ++ "\n"

/-- What has been shown while the compilations before some place of the trace were run by one
worker, on a service that was just enabled. -/
structure Shows (f : Flavour) (config : StatConfig) (cs : List TraceCompilation) (p : Progress) :
    Prop where
  workers : ∀ ctx ∈ p.workers, ctx.thread = .first
  on : p.site.service.enabled = true
  writable : p.site.service.inline.writable = true
  lines : List.Forall₂ (LineOf f) (cs.filter fun c => (effective config c).prints)
    p.site.service.inline.lines
  threads : p.site.service.SoleThread

theorem inline_left (f : Flavour) (config : StatConfig) (site : Site) (ctx : Context)
    (c : TraceCompilation) (time : Seconds) (table : StatTable) :
    (left f config site ctx c time table).service.inline =
      if (effective config c).prints then
        site.service.inline.print (Service.inlineLine f c.compiler (.named (nameOf c))
          (ended config site ctx c).counter)
      else site.service.inline := by
  have named : (interned site ctx c).1.texts = (Method.named (nameOf c)).texts :=
    SymbolStore.internMethod_texts _ _ _ _
  have line (counter : PeakCounter) :
      Service.inlineLine f c.compiler (interned site ctx c).1 counter =
        Service.inlineLine f c.compiler (.named (nameOf c)) counter := by
    rw [Service.inlineLine, Method.display_congr named, ← Service.inlineLine]
  rw [← line]
  by_cases tracked : tracks config c = true
  · rw [left, if_pos tracked]
    rfl
  · have silent : ¬ (effective config c).prints = true := by
      intro prints
      refine tracked ?_
      rw [tracks, Directive.collects, Bool.or_eq_true]
      exact .inr prints
    rw [left, if_neg tracked, if_neg silent]

theorem soleThread_left {ctx : Context} {c : TraceCompilation} {time : Seconds} {table : StatTable}
    (on : site.service.On table) (h : site.service.SoleThread) (one : ctx.thread = .first) :
    (left f config site ctx c time table).service.SoleThread := by
  by_cases tracked : tracks config c = true
  · intro t there
    cases there.symm.trans (left_on f config site ctx c time on tracked).table
    exact Service.SoleThread.upsert (h table on.table) _
      ((ended_thread config site ctx c).trans one)
  · rw [left_untracked f config site ctx c time table tracked]
    exact h

theorem shows_turned {cs : List TraceCompilation} {p p' : Progress} {turn : Turn}
    (h : Shows f config cs p) (turned : Turned f config p turn p') :
    Shows f config (cs ++ [turn.compilation]) p' := by
  obtain ⟨i, c, time⟩ := turn
  cases turned with
  | compiled ctx site' ctx' worker compiled =>
      have keeps := compiled.keeps
      cases compiled with
      | off off => cases off.enabled.symm.trans h.on
      | on table on =>
          have one : ctx.thread = .first := h.workers ctx (List.mem_of_getElem? worker)
          refine ⟨?_, keeps.enabled.trans h.on, ?_, ?_, soleThread_left on h.threads one⟩
          · intro ctx' mem
            cases List.mem_or_eq_of_mem_set mem with
            | inl old => exact h.workers ctx' old
            | inr new =>
                rw [new]
                exact (ended_thread config p.site ctx c).trans one
          · dsimp only
            rw [inline_left]
            split
            · rw [InlineOutput.print, if_pos h.writable]
              exact h.writable
            · exact h.writable
          · dsimp only
            rw [inline_left, List.filter_append]
            by_cases prints : (effective config c).prints = true
            · rw [if_pos prints, InlineOutput.print, if_pos h.writable,
                List.filter_cons_of_pos (by exact prints)]
              exact List.rel_append h.lines (.cons ⟨_, rfl⟩ .nil)
            · rw [if_neg prints, List.filter_cons_of_neg (by exact prints), List.filter_nil,
                List.append_nil]
              exact h.lines

/-- A replay of a valid trace by one worker on a service that was just enabled. -/
theorem exists_replay (f : Flavour) (config : StatConfig) (valid : t.validate = .ok ())
    (course : Course) :
    ∃ outcome site, replay f config (Site.new ⟨true, []⟩).turnOn t 1 course = .ok (outcome, site) ∧
      List.Forall₂ (LineOf f) (t.compilations.filter fun c => (effective config c).prints)
        site.service.inline.lines ∧
      site.service.SoleThread := by
  have switched : (Site.new ⟨true, []⟩).turnOn.service.Switched := rfl
  have start : Shows f config [] (.start (Site.new ⟨true, []⟩).turnOn 1) := by
    refine ⟨?_, rfl, rfl, .nil, ?_⟩
    · intro ctx mem
      rw [List.mem_singleton.mp mem]
      rfl
    · intro t on
      cases on
      intro r mem
      cases mem
  have schedule := schedule_inOrder t 1 course.clock
  rw [workerCount_one] at schedule
  obtain ⟨p, played, shows⟩ := play_kept f config (motive := Shows f config)
    (fun _ _ _ _ h turned => shows_turned h turned) switched (sound_start _ 1)
    (schedule.staffed_start _) (schedule.affordable valid) [] start
  have all : [] ++ (inOrder t course.clock).map (·.compilation) = t.compilations := by
    simp [inOrder, Function.comp_def]
  rw [all] at shows
  refine ⟨⟨t.compilations.length, p.tracked⟩, p.site, ?_, shows.lines, shows.threads⟩
  rw [replay_single f config _ t (workerCount_one _), replayIn, valid]
  simp only [played]

end Replay

end ArenaPeak
