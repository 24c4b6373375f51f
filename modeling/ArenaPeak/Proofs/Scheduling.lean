import ArenaPeak.Proofs.Episode
import ArenaPeak.Proofs.Ledger
import ArenaPeak.Proofs.PoolRuns

/-!
What the records of a replay owe to its schedule. The number of commits to a record does not depend
on it. The content of a record comes from the last commit, and what a compilation commits depends on
what its worker had in its arenas; workers whose compilations free all they allocate have nothing
there, so if no two tracked compilations share a name, the records are the same under all schedules.
-/

namespace ArenaPeak

open Trace Replay

/-- The site that a session works on. -/
def Session.site (s : Session) : Site :=
  ⟨s.service, s.symbols, s.outside, s.nextThread⟩

namespace Site

/-- What sessions leave behind, and replays after them. -/
inductive Reachable (f : Flavour) : Site → Prop where
  | session (inline : InlineOutput) (steps : List Session.Step) :
      Reachable f (Session.run f (.new inline) steps).2.site
  | replay {site site' : Site} (before : Reachable f site) {config : StatConfig} {t : Trace}
      {workers : Nat} {turns : List Turn} {outcome : Outcome} (schedule : Schedule t workers turns)
      (run : replayIn f config site t workers turns = .ok (outcome, site')) :
      Reachable f site'

/-- The switch goes with the table, and symbols and records are in order. -/
theorem Reachable.in_order {f : Flavour} {site : Site} (h : site.Reachable f) :
    site.service.Switched ∧ site.Sound := by
  induction h with
  | session inline steps =>
      have sound := Ledger.sound_after f inline steps
      have same : (Ledger.after f inline steps).session = (Session.run f (.new inline) steps).2 :=
        Ledger.session_foldl f (.start inline) steps
      rw [← same]
      exact ⟨sound.switched, sound.symbols, fun t there => (sound.on t there).recorded⟩
  | @replay site site' before config t workers turns outcome schedule run ih =>
      cases valid : t.validate with
      | error fault =>
          rw [replayIn, valid] at run
          cases run
      | ok _ =>
          obtain ⟨p, played, kept, -⟩ := play_ok f config (sound_start site workers)
            (schedule.staffed_start site) (schedule.affordable valid)
          rw [replayIn, valid] at run
          simp only [played] at run
          cases run
          exact ⟨kept.switched ih.1, kept.sound (sound_site_start ih.2 workers)⟩

end Site

namespace PeakCounter

/-- Nothing is allocated. -/
structure Idle (c : PeakCounter) : Prop where
  current : c.current.toNat = 0
  node : c.node.toNat = 0
  resource : c.resource.toNat = 0

end PeakCounter

namespace Trace

/-- A sum that is never negative and comes back to zero. -/
structure Returns (counts : ArenaTag → Bool) (es : List TraceEvent) : Prop where
  nonneg : ∀ k ≤ es.length, 0 ≤ sum counts (es.take k)
  zero : sum counts es = 0

instance (counts : ArenaTag → Bool) (es : List TraceEvent) : Decidable (Returns counts es) :=
  decidable_of_iff
    ((∀ k ≤ es.length, 0 ≤ sum counts (es.take k)) ∧ sum counts es = 0)
    ⟨fun h => ⟨h.1, h.2⟩, fun h => ⟨h.nonneg, h.zero⟩⟩

/-- A compilation that frees what it allocates, under each tag that has a total of its own. -/
structure Balanced (c : TraceCompilation) : Prop where
  total : Returns (fun _ => true) c.events
  node : Returns (· == .node) c.events
  resource : Returns (· == .resource) c.events
  fits : ∀ k ≤ c.events.length, prefixSum c.events k ≤ maxWord

instance (c : TraceCompilation) : Decidable (Balanced c) :=
  decidable_of_iff
    (Returns (fun _ => true) c.events ∧ Returns (· == .node) c.events ∧
      Returns (· == .resource) c.events ∧ ∀ k ≤ c.events.length, prefixSum c.events k ≤ maxWord)
    ⟨fun h => ⟨h.1, h.2.1, h.2.2.1, h.2.2.2⟩, fun h => ⟨h.total, h.node, h.resource, h.fits⟩⟩

end Trace

namespace Replay

variable {f : Flavour} {config : StatConfig} {site : Site} {ctx : Context} {c : TraceCompilation}
variable {time : Seconds}

theorem idle_ended (idle : ctx.counter.Idle) (balanced : Balanced c) :
    (ended config site ctx c).counter.Idle := by
  have node : (begun config site ctx c).counter.node.toNat = 0 := by
    rw [begun_counter]
    split <;> exact idle.node
  have resource : (begun config site ctx c).counter.resource.toNat = 0 := by
    rw [begun_counter]
    split <;> exact idle.resource
  refine ⟨?_, ?_, ?_⟩
  · rw [ended, Context.foldl_after_current, begun_current, idle.current]
    exact level_eq_zero balanced.total.nonneg balanced.total.zero
  · rw [ended, Context.foldl_after_node, node]
    exact level_eq_zero balanced.node.nonneg balanced.node.zero
  · rw [ended, Context.foldl_after_resource, resource]
    exact level_eq_zero balanced.resource.nonneg balanced.resource.zero

/-- A commit of a compilation on a worker with nothing allocated. -/
def Portrays (c : TraceCompilation) (commit : Commit) : Prop :=
  commit.kind = c.compiler ∧
    ∃ before k, before.Idle ∧ Describes c before k commit.peak

theorem portrays_commitOf (tracked : tracks config c = true) (idle : ctx.counter.Idle)
    (balanced : Balanced c) : Portrays c (commitOf config site ctx c time) := by
  obtain ⟨k, describes⟩ := exists_describes site ctx time tracked balanced.total.nonneg
    (fun k hk => by
      rw [idle.current]
      simpa using balanced.fits k hk)
  exact ⟨rfl, ctx.counter, k, idle, describes⟩

/-- Two commits agree in all that no worker has a hand in. -/
structure Agree (a b : Commit) : Prop where
  kind : a.kind = b.kind
  total : a.peak.total = b.peak.total
  node : a.peak.nodeBytes = b.peak.nodeBytes
  resource : a.peak.resourceBytes = b.peak.resourceBytes
  live : a.kind = .c2 → a.peak.liveNodes = b.peak.liveNodes

theorem agree_of_portrays {a b : Commit} (ha : Portrays c a) (hb : Portrays c b)
    (growing : ∃ k ≤ c.events.length, 0 < prefixSum c.events k) : Agree a b := by
  obtain ⟨kind, before, k, idle, describes⟩ := ha
  obtain ⟨kind', before', k', idle', describes'⟩ := hb
  obtain rfl : k = k' := firstPeak_unique describes.first describes'.first
  obtain ⟨j, hj, positive⟩ := growing
  have pos : 0 < prefixSum c.events k := Int.lt_of_lt_of_le positive (describes.first.highest j hj)
  refine ⟨kind.trans kind'.symm, ?_, ?_, ?_, ?_⟩
  · have total := describes.total.trans describes'.total.symm
    exact UInt64.toNat_inj.mp (Int.ofNat.inj total)
  · refine UInt64.toNat_inj.mp ?_
    rw [describes.node pos, describes'.node pos, idle.node, idle'.node]
  · refine UInt64.toNat_inj.mp ?_
    rw [describes.resource pos, describes'.resource pos, idle.resource, idle'.resource]
  · intro c2
    have compiler : c.compiler = .c2 := kind.symm.trans c2
    rw [describes.live pos, describes'.live pos, if_pos compiler, if_pos compiler]

/-! ### The commits of a replay -/

/-- A commit of a replay, with the compilation that made it and its method. -/
structure Entry where
  compilation : TraceCompilation
  method : Method
  commit : Commit

namespace Entry

/-- The record at a place after a commit. -/
def write (q : Place) (r? : Option StatRecord) (e : Entry) : Option StatRecord :=
  if q = placeOf e.compilation then some ((r?.getD (.fresh e.method)).apply e.commit) else r?

/-- Whether a compilation is recorded at a place. -/
def isAt (q : Place) (c : TraceCompilation) : Bool :=
  decide (q = placeOf c)

end Entry

/-- A progress on an enabled service with sound workers. -/
structure Progress.Running (p : Progress) : Prop where
  workers : p.Sound
  site : p.site.Sound
  on : ∃ table, p.site.service.On table

/-- No worker has anything allocated. -/
def Progress.Idle (p : Progress) : Prop :=
  ∀ ctx ∈ p.workers, ctx.counter.Idle

variable {p : Progress} {i : Nat}

theorem turn_running (f : Flavour) (config : StatConfig) (running : p.Running)
    (staffed : i < p.workers.length) (enough : ∀ n, Affordable n c.events) (time : Seconds) :
    ∃ p' ctx table, ctx ∈ p.workers ∧ p.site.service.On table ∧
      turn f config p ⟨i, c, time⟩ = .ok p' ∧ p'.Running ∧
      p'.site = left f config p.site ctx c time table ∧
      p'.workers = p.workers.set i (ended config p.site ctx c).clearTask := by
  obtain ⟨table, on⟩ := running.on
  have worker : p.workers[i]? = some p.workers[i] := List.getElem?_eq_getElem staffed
  have mem : p.workers[i] ∈ p.workers := List.getElem_mem staffed
  have begins : (begun config p.site p.workers[i] c).counter.Sound :=
    sound_begun (running.workers _ mem)
  have run := compileOne_on f on begins (enough _) time
  have kept := keeps_left f config on p.workers[i] c time
  refine ⟨⟨left f config p.site p.workers[i] c time table,
    p.workers.set i (ended config p.site p.workers[i] c).clearTask,
    p.tracked + if tracks config c then 1 else 0⟩,
    p.workers[i], table, mem, on, ?_, ⟨?_, ?_, ?_⟩, rfl, rfl⟩
  · simp only [turn, worker, run]
    rfl
  · intro ctx inSet
    cases List.mem_or_eq_of_mem_set inSet with
    | inl old =>
        exact running.workers ctx old
    | inr eq =>
        subst eq
        exact Context.sound_foldl_after _ begins
  · exact kept.sound running.site
  · exact (kept.switched on.switched).exists_on (kept.enabled.trans on.enabled)

theorem idle_turn {p' : Progress} (idle : p.Idle) (mem : ctx ∈ p.workers) (balanced : Balanced c)
    (workers : p'.workers = p.workers.set i (ended config site ctx c).clearTask) : p'.Idle := by
  intro ctx' mem'
  rw [workers] at mem'
  cases List.mem_or_eq_of_mem_set mem' with
  | inl old =>
      exact idle ctx' old
  | inr eq =>
      subst eq
      exact idle_ended (idle ctx mem) balanced

/-- A replay writes one commit for each tracked compilation, in the order of the turns. With
workers that have nothing allocated and compilations that free what they allocate, each commit is
one of a worker with nothing allocated. -/
theorem play_entries (f : Flavour) (config : StatConfig) (running : p.Running)
    {turns : List Turn} (staffed : ∀ turn ∈ turns, turn.worker < p.workers.length)
    (enough : ∀ turn ∈ turns, ∀ n, Affordable n turn.compilation.events) :
    ∃ (p' : Progress) (entries : List Entry), play f config p turns = .ok p' ∧ p'.Running ∧
      entries.map (·.compilation) = (turns.map (·.compilation)).filter (tracks config) ∧
      (∀ q, p'.site.recordAt q = entries.foldl (Entry.write q) (p.site.recordAt q)) ∧
      (p.Idle → (∀ turn ∈ turns, Balanced turn.compilation) →
        ∀ e ∈ entries, Portrays e.compilation e.commit) := by
  induction turns generalizing p with
  | nil => exact ⟨p, [], rfl, running, rfl, fun _ => rfl, by simp⟩
  | cons head turns ih =>
      obtain ⟨i, c, time⟩ := head
      rw [List.forall_mem_cons] at staffed enough
      obtain ⟨p₁, ctx, table, mem, on, first, running₁, site, workers⟩ :=
        turn_running f config running staffed.1 enough.1 time
      have length : p₁.workers.length = p.workers.length := by rw [workers, List.length_set]
      obtain ⟨p', entries, rest, running', compilations, records, portrays⟩ :=
        ih running₁ (by rw [length]; exact staffed.2) enough.2
      have run : play f config p (⟨i, c, time⟩ :: turns) = .ok p' := by
        rw [play, first]
        exact rest
      have written (q : Place) := recordAt_left f config ctx c time running.site on q
      rw [← site] at written
      by_cases tracked : tracks config c = true
      · refine ⟨p', ⟨c, (interned p.site ctx c).1, commitOf config p.site ctx c time⟩ :: entries,
          run, running', ?_, ?_, ?_⟩
        · rw [List.map_cons, List.map_cons, List.filter_cons_of_pos tracked, compilations]
        · intro q
          rw [records q, written q, List.foldl_cons, Entry.write]
          simp only [tracked, true_and]
        · intro idle balanced
          rw [List.forall_mem_cons] at balanced
          rw [List.forall_mem_cons]
          refine ⟨portrays_commitOf tracked (idle ctx mem) balanced.1, ?_⟩
          exact portrays (idle_turn idle mem balanced.1 workers) balanced.2
      · refine ⟨p', entries, run, running', ?_, ?_, ?_⟩
        · rw [List.map_cons, List.filter_cons_of_neg tracked, compilations]
        · intro q
          rw [records q, written q, if_neg fun both => tracked both.1]
        · intro idle balanced
          rw [List.forall_mem_cons] at balanced
          exact portrays (idle_turn idle mem balanced.1 workers) balanced.2

/-! ### What the commits come to -/

/-- A count raised some times, from zero if there was none. -/
def recount (n : Option UInt32) : Nat → Option UInt32
  | 0 => n
  | k + 1 => some ((recount n k).getD 0 + 1)

theorem recount_succ (n : Option UInt32) (k : Nat) :
    recount (some (n.getD 0 + 1)) k = recount n (k + 1) := by
  induction k with
  | zero => rfl
  | succ k ih =>
      rw [recount, ih]
      rfl

theorem recompilations_foldl (q : Place) (entries : List Entry) (r? : Option StatRecord) :
    (entries.foldl (Entry.write q) r?).map (·.recompilations) =
      recount (r?.map (·.recompilations))
        ((entries.map (·.compilation)).countP (Entry.isAt q)) := by
  induction entries generalizing r? with
  | nil => rfl
  | cons e entries ih =>
      rw [List.foldl_cons, ih, List.map_cons, List.countP_cons]
      by_cases here : q = placeOf e.compilation
      · have counted : Entry.isAt q e.compilation = true := by simp [Entry.isAt, here]
        rw [if_pos counted, ← recount_succ, Entry.write, if_pos here]
        cases r? <;> rfl
      · have missed : ¬ Entry.isAt q e.compilation = true := by simp [Entry.isAt, here]
        rw [if_neg missed, Entry.write, if_neg here, Nat.add_zero]

/-- Commits to other places leave a record alone. -/
theorem foldl_write_away (q : Place) (entries : List Entry)
    (away : ∀ e ∈ entries, q ≠ placeOf e.compilation) (r? : Option StatRecord) :
    entries.foldl (Entry.write q) r? = r? := by
  induction entries generalizing r? with
  | nil => rfl
  | cons e entries ih =>
      rw [List.forall_mem_cons] at away
      rw [List.foldl_cons, ih away.2, Entry.write, if_neg away.1]

/-- A record that gets one commit has the content of that commit. -/
theorem foldl_write_once (entries : List Entry) {e : Entry} (mem : e ∈ entries)
    (distinct : (entries.map fun e => placeOf e.compilation).Nodup) (r? : Option StatRecord) :
    entries.foldl (Entry.write (placeOf e.compilation)) r? =
      some ((r?.getD (.fresh e.method)).apply e.commit) := by
  induction entries generalizing r? with
  | nil => cases mem
  | cons head entries ih =>
      rw [List.map_cons, List.nodup_cons] at distinct
      rw [List.foldl_cons]
      cases List.mem_cons.mp mem with
      | inl eq =>
          subst eq
          rw [foldl_write_away, Entry.write, if_pos rfl]
          intro e' mem' same
          exact distinct.1 (List.mem_map.mpr ⟨e', mem', same.symm⟩)
      | inr mem =>
          have other : placeOf e.compilation ≠ placeOf head.compilation := by
            intro same
            exact distinct.1 (List.mem_map.mpr ⟨e, mem, same⟩)
          rw [ih mem distinct.2, Entry.write, if_neg other]

/-! ### Two schedules -/

/-- Two records agree in all that no worker has a hand in. -/
structure Alike (r r' : StatRecord) : Prop where
  kind : r.kind = r'.kind
  recompilations : r.recompilations = r'.recompilations
  total : r.total = r'.total
  node : r.nodeAtPeak = r'.nodeAtPeak
  resource : r.resourceAtPeak = r'.resourceAtPeak
  live : r.kind = .c2 → r.liveNodesAtPeak = r'.liveNodesAtPeak

theorem alike_refl (r : StatRecord) : Alike r r :=
  ⟨rfl, rfl, rfl, rfl, rfl, fun _ => rfl⟩

theorem alike_apply {a b : Commit} (agree : Agree a b) (r? : Option StatRecord) (m m' : Method) :
    Alike ((r?.getD (.fresh m)).apply a) ((r?.getD (.fresh m')).apply b) where
  kind := agree.kind
  recompilations := by cases r? <;> rfl
  total := agree.total
  node := agree.node
  resource := agree.resource
  live := agree.live

/-- The tracked compilations have names of their own, every compilation frees what it allocates, and
every tracked one allocates something. -/
structure Separate (config : StatConfig) (t : Trace) : Prop where
  distinct : ((t.compilations.filter (tracks config)).map nameOf).Nodup
  balanced : ∀ c ∈ t.compilations, Balanced c
  growing : ∀ c ∈ t.compilations, tracks config c = true →
    ∃ k ≤ c.events.length, 0 < prefixSum c.events k

variable {t : Trace}

theorem nodup_places (separate : Separate config t) {entries : List Entry}
    (perm : (entries.map (·.compilation)).Perm (t.compilations.filter (tracks config))) :
    (entries.map fun e => placeOf e.compilation).Nodup := by
  have names := (perm.map nameOf).nodup_iff.mpr separate.distinct
  have places := names.map (f := fun name => Place.mk 0 name) fun _ _ same => (Place.mk.inj same).2
  simpa [Function.comp_def, placeOf] using places

theorem alike_foldl (separate : Separate config t) {entries entries' : List Entry}
    (perm : (entries.map (·.compilation)).Perm (t.compilations.filter (tracks config)))
    (perm' : (entries'.map (·.compilation)).Perm (t.compilations.filter (tracks config)))
    (portrays : ∀ e ∈ entries, Portrays e.compilation e.commit)
    (portrays' : ∀ e ∈ entries', Portrays e.compilation e.commit) (q : Place)
    (r? : Option StatRecord) :
    Option.Rel Alike (entries.foldl (Entry.write q) r?) (entries'.foldl (Entry.write q) r?) := by
  have same := perm.trans perm'.symm
  by_cases written : ∃ e ∈ entries, q = placeOf e.compilation
  · obtain ⟨e, mem, rfl⟩ := written
    obtain ⟨e', mem', eq⟩ := List.mem_map.mp (same.subset (List.mem_map_of_mem mem))
    have once' := foldl_write_once entries' mem' (nodup_places separate perm') r?
    rw [eq] at once'
    rw [foldl_write_once entries mem (nodup_places separate perm) r?, once']
    obtain ⟨inTrace, tracked⟩ := List.mem_filter.mp (perm.subset (List.mem_map_of_mem mem))
    refine .some (alike_apply ?_ r? e.method e'.method)
    refine agree_of_portrays (portrays e mem) ?_ (separate.growing _ inTrace tracked)
    rw [← eq]
    exact portrays' e' mem'
  · have away : ∀ e ∈ entries, q ≠ placeOf e.compilation :=
      fun e mem eq => written ⟨e, mem, eq⟩
    have away' : ∀ e ∈ entries', q ≠ placeOf e.compilation := by
      intro e' mem' eq'
      obtain ⟨e, mem, eq⟩ := List.mem_map.mp (same.symm.subset (List.mem_map_of_mem mem'))
      refine away e mem ?_
      rw [eq]
      exact eq'
    rw [foldl_write_away q entries away, foldl_write_away q entries' away']
    cases r? with
    | none => exact .none
    | some r => exact .some (alike_refl r)

theorem idle_start (site : Site) (n : Nat) : (Progress.start site n).Idle := by
  intro ctx mem
  obtain ⟨_, -, rfl⟩ := List.mem_map.mp mem
  exact ⟨rfl, rfl, rfl⟩

/-- What a pool whose workers are done has written, and how much of it was tracked. -/
theorem entries_of_finished (switched : site.service.Switched) (sound : site.Sound)
    (on : site.service.enabled = true) (valid : t.validate = .ok ()) {clock : Nat → Seconds}
    {n : Nat} (pos : 0 < n) {pool : Pool}
    (h : pool.Sound f config t clock site n) (finished : pool.Finished) :
    ∃ entries : List Entry,
      (entries.map (·.compilation)).Perm (t.compilations.filter (tracks config)) ∧
      pool.progress.site.Sound ∧ pool.progress.tracked = t.compilations.countP (tracks config) ∧
      (∀ q, pool.progress.site.recordAt q = entries.foldl (Entry.write q) (site.recordAt q)) ∧
      (Separate config t → ∀ e ∈ entries, Portrays e.compilation e.commit) := by
  have schedule := h.schedule pos finished
  have enough := schedule.affordable valid
  have staffed := schedule.staffed_start site
  have running : (Progress.start site n).Running :=
    ⟨sound_start site n, sound_site_start sound n, switched.exists_on on⟩
  obtain ⟨p, entries, run, running', compilations, records, portrays⟩ :=
    play_entries f config running staffed enough
  obtain ⟨p', run', -, tracked⟩ := play_ok f config (sound_start site n) staffed enough
  obtain rfl : pool.progress = p := Except.ok.inj (h.played.symm.trans run)
  obtain rfl : pool.progress = p' := Except.ok.inj (h.played.symm.trans run')
  refine ⟨entries, ?_, running'.site, ?_, records, ?_⟩
  · rw [compilations]
    exact schedule.complete.filter _
  · have enabled : (Progress.start site n).site.service.enabled = true := on
    rw [tracked, enabled, if_pos rfl, schedule.complete.countP_eq]
    exact Nat.zero_add _
  · intro separate
    exact portrays (idle_start site n) fun turn mem =>
      separate.balanced _ (schedule.mem_trace mem)

/-- Any two runs of a valid trace by pools of workers, whoever is picked when and whatever time it
is at the end of a compilation: no contract is violated, and once all workers are done every
compilation has been run exactly once, the number of tracked ones is the same and so is the number
of commits to every record. If the trace is separate, the records are alike. -/
theorem pools_agree (site : Site) (reachable : site.Reachable f)
    (on : site.service.enabled = true) (valid : t.validate = .ok ()) {n n' : Nat} (pos : 0 < n)
    (pos' : 0 < n') (picks picks' : List Nat) (clock clock' : Nat → Seconds) :
    ∃ p p', Pool.run f config t clock (.start site n) picks = .ok p ∧
      Pool.run f config t clock' (.start site n') picks' = .ok p' ∧
      (p.Finished → (p.log.map (·.2)).Perm t.compilations.zipIdx) ∧
      (p.Finished → p'.Finished →
        p.progress.tracked = p'.progress.tracked ∧
        (∀ table name, (p.progress.site.record? table name).map (·.recompilations) =
          (p'.progress.site.record? table name).map (·.recompilations)) ∧
        (Separate config t → ∀ table name,
          Option.Rel Alike (p.progress.site.record? table name)
            (p'.progress.site.record? table name))) := by
  obtain ⟨switched, sound⟩ := reachable.in_order
  obtain ⟨p, run, h⟩ := (Pool.sound_start f config t clock site n).run valid picks
  obtain ⟨p', run', h'⟩ := (Pool.sound_start f config t clock' site n').run valid picks'
  refine ⟨p, p', run, run', h.log_perm pos, ?_⟩
  intro finished finished'
  obtain ⟨entries, perm, sound₁, tracked, records, portrays⟩ :=
    entries_of_finished switched sound on valid pos h finished
  obtain ⟨entries', perm', sound₁', tracked', records', portrays'⟩ :=
    entries_of_finished switched sound on valid pos' h' finished'
  refine ⟨tracked.trans tracked'.symm, ?_, ?_⟩
  · intro table name
    rw [Site.record?_eq sound₁, Site.record?_eq sound₁', records, records', recompilations_foldl,
      recompilations_foldl, (perm.trans perm'.symm).countP_eq]
  · intro separate table name
    rw [Site.record?_eq sound₁, Site.record?_eq sound₁', records, records']
    exact alike_foldl separate perm perm' (portrays separate) (portrays' separate) _ _

/-- Two compilations that free what they allocate, one of them by `c2`. -/
def leavingNothing : Trace where
  threads := none
  compilations :=
    [⟨"A", "run", "()V", .c1, some .collecting,
        [⟨64, .resource, none⟩, ⟨-64, .resource, none⟩]⟩,
      ⟨"B", "run", "()V", .c2, some .collecting,
        [⟨32, .node, some 7⟩, ⟨16, .other, none⟩, ⟨-16, .other, none⟩, ⟨-32, .node, none⟩]⟩]

/-- Half seconds, one for each place of a trace. -/
def halves (place : Nat) : Seconds :=
  ⟨false, place + 1, -1⟩

theorem pools_agree_two_and_one :
    ∃ p p', Pool.run .debug .default leavingNothing halves
        (.start (Session.run .debug (.new ⟨true, []⟩) [.enable]).2.site 2) [0, 1, 1, 0, 0, 1] =
          .ok p ∧
      Pool.run .debug .default leavingNothing (fun _ => .zero)
        (.start (Session.run .debug (.new ⟨true, []⟩) [.enable]).2.site 1) [0, 0, 0, 0, 0] =
          .ok p' ∧
      (p.log.map (·.2)).Perm leavingNothing.compilations.zipIdx ∧
      p.progress.tracked = p'.progress.tracked ∧
      ∀ table name, Option.Rel Alike (p.progress.site.record? table name)
        (p'.progress.site.record? table name) := by
  have separate : Separate .default leavingNothing := ⟨by decide, by decide, by decide⟩
  obtain ⟨p, p', run, run', once, agree⟩ :=
    pools_agree (Session.run .debug (.new ⟨true, []⟩) [.enable]).2.site
      (.session ⟨true, []⟩ [.enable]) rfl (show leavingNothing.validate = .ok () by decide)
      (show 0 < 2 by decide) (show 0 < 1 by decide) [0, 1, 1, 0, 0, 1] [0, 0, 0, 0, 0] halves
      fun _ => .zero
  have finished : p.Finished := by
    have done : (Pool.run .debug .default leavingNothing halves
        (.start (Session.run .debug (.new ⟨true, []⟩) [.enable]).2.site 2)
        [0, 1, 1, 0, 0, 1]).toOption.any (fun p => decide p.Finished) = true := by decide
    rw [run] at done
    exact of_decide_eq_true done
  have finished' : p'.Finished := by
    have done : (Pool.run .debug .default leavingNothing (fun _ => .zero)
        (.start (Session.run .debug (.new ⟨true, []⟩) [.enable]).2.site 1)
        [0, 0, 0, 0, 0]).toOption.any (fun p => decide p.Finished) = true := by decide
    rw [run'] at done
    exact of_decide_eq_true done
  obtain ⟨tracked, -, alike⟩ := agree finished finished'
  exact ⟨p, p', run, run', once finished, tracked, alike separate⟩

end Replay

end ArenaPeak
