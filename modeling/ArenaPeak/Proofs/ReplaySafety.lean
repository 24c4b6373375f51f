import ArenaPeak.Proofs.SiteRecords

/-!
Replays of valid traces run to their end. Validation follows a running total that is held within a
signed word and starts at zero for each compilation; a worker's counter is held within an unsigned
word and starts at whatever earlier compilations left. The counter is never below the total, so an
event that validation lets pass never frees more than the worker has, and no contract is violated.
-/

namespace ArenaPeak

namespace Trace

theorem addTotal_nonneg {total : Int} {delta : Int64} (h : 0 ≤ addTotal total delta) :
    0 ≤ total + delta.toInt := by
  have low : Int64.minValue.toInt < 0 := by decide
  rw [addTotal] at h
  omega

/-- The total of validation stays at or below the bytes of the counter. -/
theorem addTotal_le {total : Int} {n : Nat} {delta : Int64} (below : total ≤ n)
    (h : 0 ≤ addTotal total delta) :
    addTotal total delta ≤ (min maxWord ((n : Int) + delta.toInt).toNat : Nat) := by
  have low : Int64.minValue.toInt < 0 := by decide
  have wide : Int64.maxValue.toInt ≤ maxWord := by decide
  rw [addTotal] at h ⊢
  omega

theorem affordable_of_firstOverfree {total : Int} {index n : Nat} {es : List TraceEvent}
    (h : firstOverfree total index es = none) (below : total ≤ n) : Affordable n es := by
  induction es generalizing total index n with
  | nil => trivial
  | cons e es ih =>
      simp only [firstOverfree] at h
      split at h
      · cases h
      · next enough =>
          have enough := Int.not_lt.mp enough
          have := addTotal_nonneg enough
          exact ⟨by omega, ih h (addTotal_le below enough)⟩

theorem firstOverfree_of_faultOf {index : Nat} {c : TraceCompilation}
    (h : faultOf index c = none) : firstOverfree 0 0 c.events = none := by
  rw [faultOf] at h
  split at h
  · cases h
  · split at h
    · cases h
    · exact Option.map_eq_none_iff.mp h

theorem faultOf_of_firstFault {index : Nat} {cs : List TraceCompilation}
    (h : firstFault index cs = none) {c : TraceCompilation} (mem : c ∈ cs) :
    ∃ i, faultOf i c = none := by
  induction cs generalizing index with
  | nil => cases mem
  | cons c' cs ih =>
      simp only [firstFault] at h
      split at h
      · cases h
      · next first =>
          cases List.mem_cons.mp mem with
          | inl eq =>
              subst eq
              exact ⟨index, first⟩
          | inr mem =>
              exact ih h mem

/-- The events of a valid trace free no more than there is, however much there is at first. -/
theorem affordable_of_validate {t : Trace} (h : t.validate = .ok ()) {c : TraceCompilation}
    (mem : c ∈ t.compilations) (n : Nat) : Affordable n c.events := by
  rw [validate] at h
  split at h
  · cases h
  · next first =>
      obtain ⟨_, none⟩ := faultOf_of_firstFault first mem
      exact affordable_of_firstOverfree (firstOverfree_of_faultOf none) (Int.natCast_nonneg n)

end Trace

namespace Replay

/-- Turns that give every compilation of a trace to one of so many workers, in any order. -/
structure Schedule (t : Trace) (workers : Nat) (turns : List Turn) : Prop where
  complete : (turns.map (·.compilation)).Perm t.compilations
  staffed : ∀ turn ∈ turns, turn.worker < workers

namespace Schedule

variable {t : Trace} {workers : Nat} {turns : List Turn}

theorem mem_trace (schedule : Schedule t workers turns) {turn : Turn} (mem : turn ∈ turns) :
    turn.compilation ∈ t.compilations :=
  schedule.complete.subset (List.mem_map_of_mem mem)

/-- The turns of a valid trace free no more than there is. -/
theorem affordable (schedule : Schedule t workers turns) (valid : t.validate = .ok ()) :
    ∀ turn ∈ turns, ∀ n, Trace.Affordable n turn.compilation.events :=
  fun _ mem => Trace.affordable_of_validate valid (schedule.mem_trace mem)

end Schedule

/-- Every worker's counter is sound. -/
def Progress.Sound (p : Progress) : Prop :=
  ∀ ctx ∈ p.workers, ctx.counter.Sound

variable (f : Flavour) (config : StatConfig)

/-- What a site keeps through a replay: its switch, that it goes with the table, and that the
records and the symbols are in order. -/
structure Keeps (site site' : Site) : Prop where
  enabled : site'.service.enabled = site.service.enabled
  switched : site.service.Switched → site'.service.Switched
  sound : site.Sound → site'.Sound

theorem keeps_refl (site : Site) : Keeps site site :=
  ⟨rfl, id, id⟩

theorem Keeps.trans {site site' site'' : Site} (first : Keeps site site')
    (rest : Keeps site' site'') : Keeps site site'' where
  enabled := rest.enabled.trans first.enabled
  switched := rest.switched ∘ first.switched
  sound := rest.sound ∘ first.sound

theorem keeps_left_untracked (site : Site) (ctx : Context) (c : TraceCompilation) :
    Keeps site { site with symbols := (interned site ctx c).2 } :=
  ⟨rfl, id, sound_left_untracked ctx c⟩

theorem left_enabled (site : Site) (ctx : Context) (c : TraceCompilation) (time : Seconds)
    (table : StatTable) :
    (left f config site ctx c time table).service.enabled = site.service.enabled := by
  rw [left]
  split <;> rfl

theorem keeps_left {site : Site} {table : StatTable} (on : site.service.On table) (ctx : Context)
    (c : TraceCompilation) (time : Seconds) : Keeps site (left f config site ctx c time table) where
  enabled := left_enabled f config site ctx c time table
  switched _ := by
    by_cases tracked : tracks config c = true
    · exact (left_on f config site ctx c time on tracked).switched
    · rw [left_untracked f config site ctx c time table tracked]
      exact on.switched
  sound h := sound_left f config ctx c time h on

theorem compileOne_ok (site : Site) {ctx : Context} (sound : ctx.counter.Sound)
    {c : TraceCompilation} (enough : ∀ n, Trace.Affordable n c.events) (time : Seconds) :
    ∃ site' ctx', compileOne f config site ctx c time =
        .ok (site.service.enabled && tracks config c, site', ctx') ∧
      Keeps site site' ∧ ctx'.counter.Sound := by
  have sound' : (ended config site ctx c).clearTask.counter.Sound :=
    Context.sound_foldl_after _ (sound_begun sound)
  cases enabled : site.service.enabled with
  | false =>
      exact ⟨{ site with symbols := (interned site ctx c).2 }, ctx.clearTask,
        compileOne_off f enabled time, keeps_left_untracked site ctx c, sound⟩
  | true =>
      rw [Bool.true_and]
      cases there : site.service.table with
      | none =>
          exact ⟨{ site with symbols := (interned site ctx c).2 }, _,
            compileOne_bare f enabled there (sound_begun sound) (enough _) time,
            keeps_left_untracked site ctx c, sound'⟩
      | some table =>
          exact ⟨left f config site ctx c time table, _,
            compileOne_on f ⟨enabled, there⟩ (sound_begun sound) (enough _) time,
            keeps_left f config ⟨enabled, there⟩ ctx c time, sound'⟩

theorem turn_ok {p : Progress} (sound : p.Sound) {t : Turn} (staffed : t.worker < p.workers.length)
    (enough : ∀ n, Trace.Affordable n t.compilation.events) :
    ∃ p', turn f config p t = .ok p' ∧ p'.Sound ∧ p'.workers.length = p.workers.length ∧
      Keeps p.site p'.site ∧ p'.tracked =
        p.tracked + if p.site.service.enabled && tracks config t.compilation then 1 else 0 := by
  have worker : p.workers[t.worker]? = some p.workers[t.worker] := List.getElem?_eq_getElem staffed
  obtain ⟨site', ctx', run, kept, sound'⟩ :=
    compileOne_ok f config p.site (sound _ (List.getElem_mem staffed)) enough t.time
  refine ⟨⟨site', p.workers.set t.worker ctx', _⟩, ?_, ?_, by simp, kept, rfl⟩
  · simp only [turn, worker, run]
    rfl
  · intro ctx mem
    cases List.mem_or_eq_of_mem_set mem with
    | inl mem =>
        exact sound ctx mem
    | inr eq =>
        subst eq
        exact sound'

/-- Whatever turns are taken, they come to an end, and the tracked ones are counted. -/
theorem play_ok {p : Progress} (sound : p.Sound) {turns : List Turn}
    (staffed : ∀ turn ∈ turns, turn.worker < p.workers.length)
    (enough : ∀ turn ∈ turns, ∀ n, Trace.Affordable n turn.compilation.events) :
    ∃ p', play f config p turns = .ok p' ∧ Keeps p.site p'.site ∧
      p'.tracked = p.tracked + if p.site.service.enabled then
        (turns.map (·.compilation)).countP (tracks config) else 0 := by
  induction turns generalizing p with
  | nil => exact ⟨p, rfl, keeps_refl p.site, by simp⟩
  | cons head turns ih =>
      rw [List.forall_mem_cons] at staffed enough
      obtain ⟨p₁, first, sound₁, length, kept₁, tracked₁⟩ :=
        turn_ok f config sound staffed.1 enough.1
      obtain ⟨p', rest, kept, tracked⟩ := ih sound₁ (by rw [length]; exact staffed.2) enough.2
      refine ⟨p', ?_, kept₁.trans kept, ?_⟩
      · rw [play, first]
        exact rest
      · rw [tracked, tracked₁, kept₁.enabled, List.map_cons, List.countP_cons]
        cases p.site.service.enabled
        · simp
        · simp only [Bool.true_and, if_true]
          omega

theorem sound_start (site : Site) (workers : Nat) : (Progress.start site workers).Sound := by
  intro ctx mem
  obtain ⟨_, -, rfl⟩ := List.mem_map.mp mem
  exact PeakCounter.sound_zero

/-- Numbering threads does not touch the records. -/
theorem sound_site_start {site : Site} (h : site.Sound) (workers : Nat) :
    (Progress.start site workers).site.Sound :=
  ⟨h.symbols, h.recorded⟩

@[simp]
theorem length_start (site : Site) (workers : Nat) :
    (Progress.start site workers).workers.length = workers := by
  simp [Progress.start, freshWorkers]

theorem Schedule.staffed_start {t : Trace} {workers : Nat} {turns : List Turn}
    (schedule : Schedule t workers turns) (site : Site) :
    ∀ turn ∈ turns, turn.worker < (Progress.start site workers).workers.length := by
  rw [length_start]
  exact schedule.staffed

/-- Validation is the only thing a replay can fail at, and it comes before everything else: a valid
trace is replayed to its end under any schedule on any site, with as many tracked compilations as
have a directive that collects; an invalid one leaves the site alone. -/
theorem replay_of_validated (site : Site) (t : Trace) (threads : UInt64) (turns : List Turn)
    (schedule : Schedule t (workerCount threads.toNat t.compilations.length) turns) :
    (t.validate = .ok () →
      ∃ site', settle site (replayIn f config site t
          (workerCount threads.toNat t.compilations.length) turns) =
        (.ok ⟨t.compilations.length,
          if site.service.enabled then t.compilations.countP (tracks config) else 0⟩, site')) ∧
    ∀ fault, t.validate = .error fault →
      settle site (replayIn f config site t
          (workerCount threads.toNat t.compilations.length) turns) =
        (.error (.invalid fault), site) := by
  refine ⟨?_, ?_⟩
  · intro valid
    obtain ⟨p, run, -, tracked⟩ := play_ok f config
      (sound_start site (workerCount threads.toNat t.compilations.length))
      (schedule.staffed_start site) (schedule.affordable valid)
    have counted : p.tracked =
        if site.service.enabled then t.compilations.countP (tracks config) else 0 := by
      rw [tracked, schedule.complete.countP_eq, Progress.start, Nat.zero_add]
    exact ⟨p.site, by simp only [replayIn, valid, run, settle, counted]⟩
  · intro fault invalid
    simp only [replayIn, invalid, settle]

/-- Three compilations that leave everything behind: a worker that runs all of them ends up at the
largest word. The first is tracked by a command, the second by its own directive. -/
def leavingAll : Trace where
  threads := none
  compilations :=
    ["A", "B", "C"].map fun owner =>
      ⟨owner, "run", "()V", .c2, if owner = "B" then some .printing else none,
        [⟨Int64.maxValue, .node, some 5⟩]⟩

def trackingA : StatConfig :=
  { StatConfig.default with commands := [⟨.collect, ⟨"A", "*"⟩⟩] }

theorem replay_of_validated_saturating :
    ∃ site', settle (Site.new ⟨true, []⟩).turnOn
        (replayIn .debug trackingA (Site.new ⟨true, []⟩).turnOn leavingAll (workerCount 2 3)
          (leavingAll.compilations.map fun c => ⟨1, c, .zero⟩).reverse) =
      (.ok ⟨3, 2⟩, site') := by
  have schedule : Schedule leavingAll (workerCount 2 3)
      (leavingAll.compilations.map fun c => ⟨1, c, .zero⟩).reverse :=
    ⟨by decide, by decide⟩
  have valid : leavingAll.validate = .ok () := by decide
  exact (replay_of_validated .debug trackingA (Site.new ⟨true, []⟩).turnOn leavingAll 2 _
    schedule).1 valid

/-- The order of the trace with one worker is a schedule. -/
theorem schedule_inOrder (t : Trace) (threads : UInt64) (clock : Nat → Seconds) :
    Schedule t (workerCount threads.toNat t.compilations.length) (inOrder t clock) where
  complete := by simp [inOrder, Function.comp_def]
  staffed turn mem := by
    obtain ⟨c, -, rfl⟩ := List.mem_map.mp mem
    simp only [workerCount]
    omega

end Replay

end ArenaPeak
