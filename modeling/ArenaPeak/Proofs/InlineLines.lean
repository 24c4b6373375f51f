import ArenaPeak.Proofs.Lanes
import ArenaPeak.Proofs.MuteOutput
import ArenaPeak.Proofs.Registry
import ArenaPeak.Proofs.SiteRecords

/-!
What the inline output says. A line is rendered from the counter before the record is written, and
the record is made from a snapshot of the counter, so line and record are two ways to the same
numbers; their methods are the same in text because methods that are told apart by their symbols
are told apart by their places. The lines of a run are the commits of the tasks that print, in the
order in which they were made.
-/

namespace ArenaPeak

/-- A commit as it is made: the task that ends and the counter of its thread, and the service right
after it. -/
structure Made where
  task : CompileTask
  counter : PeakCounter
  commit : Commit
  after : Service

/-- The numbers of a debug build at the end of a line: baseline, peak and current bytes. -/
def PeakCounter.waypoints (f : Flavour) (c : PeakCounter) : String :=
  match f with
  | .debug =>
      " (" ++ toString c.start.toNat ++ "->" ++ toString c.peak.toNat ++ "->" ++
        toString c.current.toNat ++ ")"
  | .release => ""

/-- What an inline line says, read off a record. -/
def StatRecord.inlineText (r : StatRecord) : String :=
  r.kind.name ++ " Arena usage " ++ r.method.display ++ ": " ++ toString r.total.toNat ++ " [na " ++
    toString r.nodeAtPeak.toNat ++ " ra " ++ toString r.resourceAtPeak.toNat ++ "]"

namespace Made

/-- The record of the method right after the commit. -/
def record? (m : Made) : Option StatRecord :=
  m.after.get? m.task.method

/-- The line shows the record as the commit left it. -/
def Shown (f : Flavour) (m : Made) (line : String) : Prop :=
  ∃ r, m.record? = some r ∧ line = r.inlineText ++ m.counter.waypoints f ++ "\n"

end Made

theorem PeakCounter.display_eq (f : Flavour) (c : PeakCounter) :
    c.display f = toString c.sinceStart.toNat ++ " [na " ++ toString c.nodeAtPeak.toNat ++ " ra " ++
      toString c.resourceAtPeak.toNat ++ "]" ++ c.waypoints f := by
  cases f <;> rfl

/-- What a service has come to by some commits: its table is what they leave, and where its output
accepts lines, the lines are those of the commits that print. -/
structure Mirrors (f : Flavour) (s : Service) (made : List Made) (s' : Service) : Prop where
  table : s'.table.getD .empty =
    made.foldl (fun t m => t.upsert m.task.method m.commit) (s.table.getD .empty)
  writable : s'.inline.writable = s.inline.writable
  lines : s.inline.writable = true → ∃ lines, s'.inline.lines = s.inline.lines ++ lines ∧
    List.Forall₂ (Made.Shown f) (made.filter (·.task.directive.prints)) lines

namespace Mirrors

variable {f : Flavour} {s s' s'' : Service} {made made' : List Made}

theorem idle (table : s'.table.getD .empty = s.table.getD .empty) (inline : s'.inline = s.inline) :
    Mirrors f s [] s' where
  table := table
  writable := congrArg _ inline
  lines _ := ⟨[], by rw [inline, List.append_nil], .nil⟩

theorem refl (f : Flavour) (s : Service) : Mirrors f s [] s :=
  idle rfl rfl

theorem trans (h : Mirrors f s made s') (h' : Mirrors f s' made' s'') :
    Mirrors f s (made ++ made') s'' where
  table := by rw [h'.table, h.table, List.foldl_append]
  writable := h'.writable.trans h.writable
  lines writable := by
    obtain ⟨lines, first, shown⟩ := h.lines writable
    obtain ⟨lines', second, shown'⟩ := h'.lines (h.writable.trans writable)
    refine ⟨lines ++ lines', ?_, ?_⟩
    · rw [second, first, List.append_assoc]
    · rw [List.filter_append]
      exact List.rel_append shown shown'

/-- A commit leaves the record that its line shows. -/
theorem commit {table : StatTable} (on : s.On table) (c : Context) {t : CompileTask}
    (alike : ∀ r, table.get? t.method = some r → r.method.texts = t.method.texts)
    (time : Seconds) :
    Mirrors f s [⟨t, c.counter, Service.commitOf c t time, s.commit f table c t time⟩]
      (s.commit f table c t time) where
  table := by
    rw [on.table]
    rfl
  writable := by
    rw [Service.commit, InlineOutput.print]
    dsimp only
    split <;> (try split) <;> rfl
  lines writable := by
    have display : ((table.get? t.method).getD (.fresh t.method)).method.display =
        t.method.display := by
      refine Method.display_congr ?_
      cases found : table.get? t.method with
      | none => rfl
      | some r => exact alike r found
    have shown : Made.Shown f
        ⟨t, c.counter, Service.commitOf c t time, s.commit f table c t time⟩
        (Service.inlineLine f t.kind t.method c.counter) := by
      refine ⟨_, StatTable.get?_upsert_self table t.method (Service.commitOf c t time), ?_⟩
      simp only [Service.inlineLine, StatRecord.inlineText, StatRecord.apply, display,
        PeakCounter.display_eq, Service.commitOf, PeakCounter.snapshot, String.append_assoc]
    rw [Service.commit, InlineOutput.print, if_pos writable]
    by_cases prints : t.directive.prints = true
    · rw [if_pos prints, List.filter_cons_of_pos (by exact prints)]
      exact ⟨_, rfl, .cons shown .nil⟩
    · rw [if_neg prints, List.filter_cons_of_neg (by exact prints)]
      exact ⟨[], (List.append_nil _).symm, .nil⟩

end Mirrors

/-- A record that is found under a method has its texts. -/
theorem Recorded.texts_eq {st : SymbolStore} {t : StatTable} (hr : Recorded st t) (h : st.Sound)
    {m : Method} {p : Place} (hm : m.At st p) {r : StatRecord} (found : t.get? m = some r) :
    r.method.texts = m.texts := by
  obtain ⟨q, placed⟩ := hr.placed r (List.mem_of_find?_eq_some found)
  have same : r.method.same m = true := by simpa using List.find?_some found
  rw [placed.1, hm.1, placed.place_eq h hm same]

/-! ### Replays -/

namespace Replay

variable (f : Flavour) (config : StatConfig)

/-- What a compilation commits, if it does. -/
def made? (site : Site) (ctx : Context) (c : TraceCompilation) (time : Seconds) : Option Made :=
  if site.service.enabled && tracks config c then
    site.service.table.map fun table =>
      ⟨taskOf config site ctx c, (ended config site ctx c).counter,
        commitOf config site ctx c time, (left f config site ctx c time table).service⟩
  else none

/-- What some turns commit, one after the other. -/
def made (p : Progress) : List Turn → List Made
  | [] => []
  | t :: turns =>
      ((p.workers[t.worker]?).bind fun ctx =>
        made? f config p.site ctx t.compilation t.time).toList ++
        match turn f config p t with
        | .ok p => made p turns
        | .error _ => []

variable {f config}

variable {site site' : Site} {ctx ctx' : Context} {c : TraceCompilation} {time : Seconds}

theorem sound_compiled (h : site.Sound) (compiled : Compiled f config site ctx c time site' ctx') :
    site'.Sound := by
  cases compiled with
  | off off => exact sound_left_untracked ctx c h
  | on table on => exact sound_left f config ctx c time h on

theorem mirrors_compiled (h : site.Sound)
    (compiled : Compiled f config site ctx c time site' ctx') :
    Mirrors f site.service (made? f config site ctx c time).toList site'.service := by
  cases compiled with
  | off off =>
      rw [made?, off.enabled]
      exact .refl f _
  | on table on =>
      rw [made?, on.enabled, on.table, Bool.true_and]
      by_cases tracked : tracks config c = true
      · rw [if_pos tracked, Option.map_some, left, if_pos tracked]
        refine .commit on _ (fun r found => ?_) time
        exact (recorded_interned ctx c h on.table).texts_eq (sound_interned ctx c h)
          (interned_at ctx c h) found
      · rw [if_neg tracked, left_untracked f config site ctx c time table tracked]
        exact .refl f _

theorem mirrors_play {p : Progress} (switched : p.site.service.Switched) (h : p.site.Sound)
    (sound : p.Sound) {turns : List Turn}
    (staffed : ∀ turn ∈ turns, turn.worker < p.workers.length)
    (enough : ∀ turn ∈ turns, ∀ n, Trace.Affordable n turn.compilation.events) :
    ∃ p', play f config p turns = .ok p' ∧ p'.site.Sound ∧
      Mirrors f p.site.service (made f config p turns) p'.site.service := by
  induction turns generalizing p with
  | nil => exact ⟨p, rfl, h, .refl f _⟩
  | cons t turns ih =>
      rw [List.forall_mem_cons] at staffed enough
      obtain ⟨p₁, first, turned, switched₁, sound₁, length⟩ :=
        turn_turned f config switched sound staffed.1 enough.1
      cases turned with
      | compiled ctx site' ctx' worker compiled =>
          obtain ⟨p', rest, h', mirrors⟩ := ih switched₁ (sound_compiled h compiled) sound₁
            (by rw [length]; exact staffed.2) enough.2
          refine ⟨p', by rw [play, first]; exact rest, h', ?_⟩
          rw [made, first, worker, Option.bind_some]
          exact (mirrors_compiled h compiled).trans mirrors

/-- What a job commits; a trace that is refused commits nothing. -/
def Job.made (f : Flavour) (job : Job) (site : Site) : List Made :=
  match job.trace.validate with
  | .ok () => Replay.made f job.config (.start site job.workers) job.turns
  | .error _ => []

theorem Job.mirrors_run (f : Flavour) (job : Job) (switched : site.service.Switched)
    (h : site.Sound) :
    Mirrors f site.service (job.made f site) (job.run f site).2.service := by
  rw [Job.made]
  cases valid : job.trace.validate with
  | error fault =>
      simp only [run, replayIn, valid, settle]
      exact .refl f _
  | ok _ =>
      obtain ⟨p, (played : play f job.config _ _ = _), -, mirrors⟩ :=
        mirrors_play (p := .start site job.workers) switched ⟨h.symbols, h.recorded⟩
          (sound_start site job.workers) (job.schedule.staffed_start site)
          (job.schedule.affordable valid)
      simp only [run, replayIn, valid, played, settle]
      exact mirrors

end Replay

/-- What a thread ends is the compilation it works on. -/
theorem Worker.context_of_ending? {w : Worker} {st : Session.Step} {c : Context} {time : Seconds}
    (ends : w.ending? st = some (c, time)) : w.context = c := by
  obtain ⟨ctx, guard⟩ := w
  cases st with
  | finish i time =>
      cases guard <;> cases ends
      rfl
  | close i time | crash i time =>
      cases guard with
      | none => cases ends
      | some g =>
          simp only [ending?] at ends
          split at ends <;> cases ends
          rfl
  | _ => cases ends

/-! ### Sessions that run replays -/

namespace Ledger

variable {L : Ledger} {s' : Session}

/-- A commit to a method that no thread of the session works on. -/
theorem Sound.upsert (h : L.Sound) {t : StatTable} {m : Method} {p : Place} {c : Commit}
    (on : L.session.service.On t) (placed : m.At L.session.symbols p)
    (on' : s'.service.On (t.upsert m c))
    (symbols : s'.symbols = L.session.symbols.pinMethod m)
    (methods : s'.methodOf = L.session.methodOf) :
    Sound ⟨s', L.origins, (some p, c) :: L.commits⟩ where
  switched := on'.switched
  symbols := by
    rw [symbols]
    exact SymbolStore.sound_pinMethod h.symbols placed
  placed i m' works := by
    rw [methods] at works
    obtain ⟨q, origin, placed'⟩ := h.placed i m' works
    rw [symbols]
    exact ⟨q, origin, placed'.pinMethod m⟩
  known mem := by
    rw [List.map_cons, List.mem_cons] at mem
    cases mem with
    | inl new => cases new
    | inr old => exact h.known old
  off none := by cases none.symm.trans on'.table
  on t' there := by
    cases there.symm.trans on'.table
    rw [symbols]
    exact accounts_upsert (h.on t on.table) h.symbols placed c

/-- A name that is interned for a worker of a replay, with all that the session holds alive. -/
theorem Sound.internFor (h : L.Sound) (held : List Symbol) (table : Nat) (name : MethodName)
    (same : s'.service = L.session.service) (methods : s'.methodOf = L.session.methodOf)
    (symbols : s'.symbols =
      (L.session.symbols.internMethod (held ++ L.session.held) table name).2) :
    Sound ⟨s', L.origins, L.commits⟩ := by
  refine h.carry (same ▸ rfl) (same ▸ rfl) ?_ ?_ ?_
  · rw [symbols]
    exact SymbolStore.sound_internMethod h.symbols _ _ _
  · rw [symbols]
    exact SymbolStore.keeps_internMethod h.symbols _ _ _
  · intro i m works
    rw [methods] at works
    obtain ⟨p, origin, placed⟩ := h.placed i m works
    rw [symbols]
    exact ⟨p, origin, placed.internMethod h.symbols
      (List.subset_append_of_subset_right _ (Session.held_of_methodOf works)) table name⟩

end Ledger

namespace Session

open Replay (Compiled tracks left left_untracked left_symbols left_on commitOf interned_at)

variable {f : Flavour} {s : Session} {i : Nat} {w : Worker}

/-- Books could have been kept of the session: its symbols are sound, its tasks and records stand
for places, and its records are what some commits come to. -/
def Lawful (s : Session) : Prop :=
  ∃ L : Ledger, L.Sound ∧ L.session = s

theorem Lawful.switched (h : s.Lawful) : s.service.Switched := by
  obtain ⟨L, sound, rfl⟩ := h
  exact sound.switched

theorem Lawful.site (h : s.Lawful) : s.site.Sound := by
  obtain ⟨L, sound, rfl⟩ := h
  exact ⟨sound.symbols, fun t on => (sound.on t on).recorded⟩

/-- What a thread works on has the texts of the record that is found under it. -/
theorem Lawful.texts_eq (h : s.Lawful) {m : Method} (works : s.methodOf i = some m)
    {t : StatTable} (on : s.service.table = some t) {r : StatRecord} (found : t.get? m = some r) :
    r.method.texts = m.texts := by
  obtain ⟨L, sound, rfl⟩ := h
  obtain ⟨p, -, placed⟩ := sound.placed i m works
  exact (sound.on t on).recorded.texts_eq sound.symbols placed found

theorem lawful_compiled (h : s.Lawful) {config : StatConfig} {ctx ctx' : Context}
    {c : TraceCompilation} {time : Seconds} {site' : Site}
    (compiled : Compiled f config s.site ctx c time site' ctx') : (s.onSite site').Lawful := by
  obtain ⟨L, sound, rfl⟩ := h
  have interned : Ledger.Sound ⟨{ L.session with
      symbols := (Replay.interned L.session.site ctx c).2 }, L.origins, L.commits⟩ :=
    sound.internFor ctx.held 0 (Replay.nameOf c) rfl rfl rfl
  cases compiled with
  | off off => exact ⟨_, interned, rfl⟩
  | on table on =>
      by_cases tracked : tracks config c = true
      · have placed := interned_at ctx c (Lawful.site ⟨L, sound, rfl⟩)
        have committed : Ledger.Sound
            ⟨L.session.onSite (left f config L.session.site ctx c time table), L.origins,
              (some (Replay.placeOf c), commitOf config L.session.site ctx c time) :: L.commits⟩ :=
          interned.upsert on placed (left_on f config L.session.site ctx c time on tracked)
            (left_symbols f config L.session.site ctx c time table tracked) rfl
        exact ⟨_, committed, rfl⟩
      · rw [left_untracked f config L.session.site ctx c time table tracked]
        exact ⟨_, interned, rfl⟩

/-- How many threads there have been does not show in the books. -/
theorem Lawful.renumbered (h : s.Lawful) (nextThread : ThreadId) :
    Lawful { s with nextThread } := by
  obtain ⟨L, sound, rfl⟩ := h
  exact ⟨⟨{ L.session with nextThread }, L.origins, L.commits⟩,
    sound.carry rfl rfl sound.symbols (SymbolStore.keeps_refl _) sound.placed, rfl⟩

theorem lawful_operate (h : s.Lawful) (op : Operation) : (s.operate f op).2.Lawful := by
  cases op with
  | step st =>
      obtain ⟨L, sound, rfl⟩ := h
      exact ⟨L.step f st, Ledger.sound_step sound st, rfl⟩
  | replay job =>
      let P (site : Site) : Prop := (s.onSite site).site = site ∧ (s.onSite site).Lawful
      suffices P (job.run f s.site).2 from this.2
      refine Replay.Job.run_kept (P := P) ?_ h.switched fun next => ⟨rfl, h.renumbered next⟩
      rintro site ctx c time site' ctx' ⟨same, lawful⟩ compiled
      refine ⟨?_, lawful_compiled lawful (same.symm ▸ compiled)⟩
      have outside : s.outside = site'.outside :=
        (congrArg Site.outside same).trans compiled.outside.symm
      change Site.mk _ _ s.outside _ = _
      rw [outside]
      rfl

theorem lawful_reached (f : Flavour) (inline : InlineOutput) (ops : List Operation) :
    ((new inline).reached f ops).Lawful :=
  reached_kept (P := Lawful) (fun _ op h => lawful_operate h op)
    ⟨.start inline, Ledger.sound_start inline, rfl⟩ ops

/-! ### Runs -/

/-- What a step commits, if it does. -/
def made? (f : Flavour) (s : Session) (st : Step) : Option Made :=
  (s.ending? st).bind fun (_, c, time) => c.task.bind fun t =>
    (s.service.commit? f c time).map fun commit => ⟨t, c.counter, commit, (s.step f st).2.service⟩

/-- What an operation commits. -/
def madeBy (f : Flavour) (s : Session) : Operation → List Made
  | .step st => (s.made? f st).toList
  | .replay job => job.made f s.site

/-- What a run commits, the first commit first. -/
def made (f : Flavour) (s : Session) : List Operation → List Made
  | [] => []
  | op :: ops => s.madeBy f op ++ made f (s.operate f op).2 ops

theorem made?_commit (f : Flavour) (s : Session) (st : Step) :
    (s.made? f st).map (·.commit) = (s.commit? f st).map (·.2) := by
  rw [made?, commit?]
  cases s.ending? st with
  | none => rfl
  | some ending =>
      obtain ⟨i, ⟨thread, counter, task⟩, time⟩ := ending
      cases task with
      | none => rfl
      | some t =>
          simp only [Option.bind_some, Option.map_map]
          rfl

/-- A step of no thread at most switches the service on. -/
theorem mirrors_shared (switched : s.service.Switched) {st : Step} (shared : st.thread = none) :
    Mirrors f s.service [] (s.step f st).2.service := by
  cases st with
  | enable =>
      cases switched.cases with
      | inl off =>
          rw [step_enable_off off]
          exact .idle (by rw [off.table]; rfl) rfl
      | inr on =>
          obtain ⟨table, on⟩ := on
          rw [step_enable_on on.enabled]
          exact .refl f _
  | report order human minSize limit =>
      rw [step_report]
      exact .refl f _
  | views order minSize =>
      rw [step_views]
      exact .refl f _
  | newContext | lookup | hold | release | liveCount | purge => exact .refl f _
  | _ => cases shared

/-- A thread's commit is applied to the records there were. -/
theorem service_committed (switched : s.service.Switched) {st : Step} {c : Context}
    {t : CompileTask} {time : Seconds} {table : StatTable}
    (works : s.methodOf i = some t.method)
    (commits : s.commit? f st = some (i, Service.commitOf c t time))
    (after : (s.step f st).2.service = s.service.commit f table c t time) :
    ∃ table, s.service.On table ∧
      (s.step f st).2.service = s.service.commit f table c t time := by
  cases tableStep f switched st with
  | same quiet _ _ => cases quiet.symm.trans commits
  | created quiet _ _ => cases quiet.symm.trans commits
  | committed j m c' commits' left =>
      cases commits'.symm.trans commits
      cases left.works.symm.trans works
      obtain ⟨table', on, upserted⟩ := left.table
      rw [after] at upserted
      refine ⟨table', on, ?_⟩
      rw [after, Service.commit, Service.commit, Option.some.inj upserted.table]

theorem mirrors_step (h : s.Lawful) (st : Step) :
    Mirrors f s.service (s.made? f st).toList (s.step f st).2.service := by
  cases own : st.thread with
  | none =>
      have quiet : s.made? f st = none := by cases st <;> first | rfl | cases own
      rw [quiet]
      exact mirrors_shared h.switched own
  | some i =>
      cases there : s.workers[i]? with
      | none =>
          have quiet : s.made? f st = none := by
            rw [made?]
            cases st <;> cases own <;> simp [ending?, there]
          rw [step_noWorker there own, quiet]
          exact .refl f _
      | some w =>
          have ending := ending?_eq there own
          cases serviceStep (f := f) h.switched there own with
          | kept quiet after =>
              have nothing : s.made? f st = none := by
                rw [made?, ending]
                cases ends : w.ending? st with
                | none => rfl
                | some ended => simp [quiet ended.1 ended.2 ends]
              rw [after, nothing]
              exact .refl f _
          | committed c time table t ends task commits after =>
              cases Worker.context_of_ending? ends
              have works : s.methodOf i = some t.method := by
                rw [methodOf_of_worker there, task]
                rfl
              have committed :
                  s.commit? f st = some (i, Service.commitOf w.context t time) := by
                rw [commit?, ending, ends]
                exact congrArg (Option.map fun commit => (i, commit)) commits
              obtain ⟨table, on, after⟩ := service_committed h.switched works committed after
              have made : s.made? f st = some ⟨t, w.context.counter,
                  Service.commitOf w.context t time,
                  s.service.commit f table w.context t time⟩ := by
                rw [made?, ending, ends]
                simp [task, commits, after]
              rw [after, made]
              exact .commit on w.context (fun r found => h.texts_eq works on.table found) time

theorem mirrors_operate (h : s.Lawful) (op : Operation) :
    Mirrors f s.service (s.madeBy f op) (s.operate f op).2.service := by
  cases op with
  | step st => exact mirrors_step h st
  | replay job => exact job.mirrors_run f h.switched h.site

theorem mirrors_reached (h : s.Lawful) (ops : List Operation) :
    Mirrors f s.service (s.made f ops) (s.reached f ops).service := by
  induction ops generalizing s with
  | nil => exact .refl f _
  | cons op ops ih => exact (mirrors_operate h op).trans (ih (lawful_operate h op))

/-- In a run of steps what is made is what the books say. -/
theorem commits_foldl_made (L : Ledger) (steps : List Step) :
    (steps.foldl (Ledger.step f) L).commits.map (·.2) =
      ((L.session.made f (steps.map .step)).map (·.commit)).reverse ++ L.commits.map (·.2) := by
  induction steps generalizing L with
  | nil => rfl
  | cons st steps ih =>
      have first : (L.step f st).commits.map (·.2) =
          ((L.session.made? f st).map (·.commit)).toList ++ L.commits.map (·.2) := by
        rw [made?_commit, Ledger.step, Ledger.commitsAfter]
        cases L.session.commit? f st <;> rfl
      rw [List.foldl_cons, ih, first, List.map_cons, made, madeBy]
      cases L.session.made? f st with
      | none => rfl
      | some m =>
          simp only [Option.map_some, Option.toList_some, List.singleton_append, List.map_cons,
            List.reverse_cons, List.append_assoc]
          rfl

/-- The inline output of a session that has run some operations. -/
structure OutputKept (f : Flavour) (inline : InlineOutput) (ops : List Operation) (s : Session) :
    Prop where
  /-- The records are what the commits leave, and an output that accepts lines has one line for each
  commit that prints, which shows the record right after it. -/
  mirrors : Mirrors f (.new inline) ((new inline).made f ops) s.service
  /-- Without replays these are the commits that the ledger has. -/
  commits : ∀ steps, ops = steps.map .step → (Ledger.after f inline steps).commits.map (·.2) =
    (((new inline).made f ops).map (·.commit)).reverse
  /-- With a mute output in its place all answers are the same, and so are the sessions but for the
  output. -/
  mute : ∀ o, o.writable = false → trail (operate f) (new o) ops =
    (trail (operate f) (new inline) ops).map fun r => (r.1, r.2.withOutput o)

theorem outputKept_reached (f : Flavour) (inline : InlineOutput) (ops : List Operation) :
    OutputKept f inline ops ((new inline).reached f ops) where
  mirrors := mirrors_reached (lawful_reached f inline []) ops
  commits steps only := by
    subst only
    rw [Ledger.after, commits_foldl_made]
    exact List.append_nil _
  mute o mute := trail_withOutput mute f (new inline) ops

end Session

end ArenaPeak
