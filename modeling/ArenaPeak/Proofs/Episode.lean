import ArenaPeak.Proofs.Compilation
import Mathlib.Data.List.Induction

/-!
What a tracked compilation commits. The total is the largest prefix sum of its deltas, whatever the
worker had allocated before; the other fields are the totals of the worker right after the event
that first reached that sum, or what the counter held before if no sum is positive.
-/

namespace ArenaPeak

open Trace

namespace PeakCounter

/-- Two counters hold the same samples. -/
def SameSamples (c c' : PeakCounter) : Prop :=
  c.nodeAtPeak = c'.nodeAtPeak ∧ c.resourceAtPeak = c'.resourceAtPeak ∧
    c.liveNodesAtPeak = c'.liveNodesAtPeak

/-- The samples of a counter were taken in a context. -/
def SampledIn (c : PeakCounter) (ctx : Context) : Prop :=
  c.nodeAtPeak = ctx.counter.node ∧ c.resourceAtPeak = ctx.counter.resource ∧
    ∀ n, ctx.task.bind (·.nodeSource) = some n → c.liveNodesAtPeak = n

end PeakCounter

namespace Context

open PeakCounter

variable {ctx : Context} {es : List TraceEvent} {e : TraceEvent}

theorem sameSamples_after (h : shift ctx.counter.current e.delta ≤ ctx.counter.peak) :
    SameSamples (ctx.after e).counter ctx.counter := by
  simp only [SameSamples, after, add_of_le _ _ _ _ h]
  cases e.tag <;> exact ⟨rfl, rfl, rfl⟩

theorem sampledIn_after (h : ctx.counter.peak < shift ctx.counter.current e.delta) :
    SampledIn (ctx.after e).counter (ctx.after e) := by
  refine ⟨?_, ?_, ?_⟩
  · simp [after, add_of_lt _ _ _ _ h, sample, move_node]
  · simp [after, add_of_lt _ _ _ _ h, sample, move_resource]
  · intro n source
    have source : (ctx.hear e).task.bind (·.nodeSource) = some n := source
    simp [after, add_of_lt _ _ _ _ h, sample, source]

/-- Only compilations by `c2` sample the live nodes. -/
theorem foldl_after_liveNodes (es : List TraceEvent) (silent : ∀ t ∈ ctx.task, t.kind ≠ .c2) :
    (es.foldl after ctx).counter.liveNodesAtPeak = ctx.counter.liveNodesAtPeak := by
  induction es generalizing ctx with
  | nil => rfl
  | cons e es ih =>
      have heard : ∀ t ∈ (ctx.after e).task, t.kind ≠ .c2 := by
        intro t mem
        rw [after, hear_task] at mem
        obtain ⟨t', mem', rfl⟩ := Option.map_eq_some_iff.mp mem
        exact silent t' mem'
      have source : (ctx.hear e).task.bind (·.nodeSource) = none := by
        cases task : (ctx.hear e).task with
        | none => rfl
        | some t => exact t.nodeSource_of_ne (heard t task)
      rw [List.foldl_cons, ih heard]
      simp [after, source]

/-- The peak after some events is reached by the first `k` of them, and the samples are from there;
with `k` zero no event has reached a new peak. -/
structure Peaked (ctx : Context) (es : List TraceEvent) (k : Nat) : Prop where
  first : FirstPeak es k
  peak : ((es.foldl after ctx).counter.peak.toNat : Int) =
    ctx.counter.current.toNat + prefixSum es k
  kept : k = 0 → SameSamples (es.foldl after ctx).counter ctx.counter
  sampled : 0 < k → SampledIn (es.foldl after ctx).counter ((es.take k).foldl after ctx)

theorem foldl_after_current_exact (nonneg : ∀ k ≤ es.length, 0 ≤ prefixSum es k)
    (fits : ∀ k ≤ es.length, ctx.counter.current.toNat + prefixSum es k ≤ maxWord) :
    ((es.foldl after ctx).counter.current.toNat : Int) =
      ctx.counter.current.toNat + prefixSum es es.length := by
  rw [foldl_after_current, prefixSum_length]
  refine level_eq_sum ?_ fits
  intro k hk
  have := nonneg k hk
  simp only [prefixSum] at this
  omega

theorem peaked_nil (fresh : ctx.counter.peak = ctx.counter.current) : Peaked ctx [] 0 where
  first := firstPeak_nil
  peak := by simp [fresh]
  kept _ := ⟨rfl, rfl, rfl⟩
  sampled h := absurd h (Nat.lt_irrefl 0)

theorem peaked_snoc {k : Nat} (h : Peaked ctx es k)
    (nonneg : ∀ j ≤ (es ++ [e]).length, 0 ≤ prefixSum (es ++ [e]) j)
    (fits : ∀ j ≤ (es ++ [e]).length,
      ctx.counter.current.toNat + prefixSum (es ++ [e]) j ≤ maxWord) :
    ∃ j, Peaked ctx (es ++ [e]) j := by
  have current := foldl_after_current_exact nonneg fits
  have ended : (es ++ [e]).foldl after ctx = (es.foldl after ctx).after e := by simp
  have whole : prefixSum (es ++ [e]) (es ++ [e]).length =
      prefixSum es es.length + e.delta.toInt := by
    rw [List.length_append, List.length_singleton, prefixSum_snoc]
  have moved : ((shift (es.foldl after ctx).counter.current e.delta).toNat : Int) =
      ctx.counter.current.toNat + (prefixSum es es.length + e.delta.toInt) := by
    rw [← whole, ← current, ended]
    simp [after]
  have peak := h.peak
  cases Int.lt_or_le (prefixSum es k) (prefixSum es es.length + e.delta.toInt) with
  | inl higher =>
      have new : (es.foldl after ctx).counter.peak <
          shift (es.foldl after ctx).counter.current e.delta := by
        rw [UInt64.lt_iff_toNat_lt]
        omega
      refine ⟨es.length + 1, firstPeak_snoc_of_lt h.first higher, ?_, by simp, ?_⟩
      · rw [ended, prefixSum_snoc, ← moved]
        simp [after, PeakCounter.add_of_lt _ _ _ _ new, sample]
      · intro _
        rw [List.take_of_length_le (by simp), ended]
        exact sampledIn_after new
  | inr lower =>
      have old : shift (es.foldl after ctx).counter.current e.delta ≤
          (es.foldl after ctx).counter.peak := by
        rw [UInt64.le_iff_toNat_le]
        omega
      have same : SameSamples ((es.foldl after ctx).after e).counter (es.foldl after ctx).counter :=
        sameSamples_after old
      refine ⟨k, firstPeak_snoc_of_le h.first lower, ?_, ?_, ?_⟩
      · rw [ended, prefixSum_append [e] h.first.le_length, ← peak]
        simp [after, PeakCounter.add_of_le _ _ _ _ old]
      · intro zero
        rw [ended]
        have kept := h.kept zero
        exact ⟨same.1.trans kept.1, same.2.1.trans kept.2.1, same.2.2.trans kept.2.2⟩
      · intro pos
        rw [ended, List.take_append_of_le_length h.first.le_length]
        have sampled := h.sampled pos
        exact ⟨same.1.trans sampled.1, same.2.1.trans sampled.2.1,
          fun n source => same.2.2.trans (sampled.2.2 n source)⟩

/-- From a fresh episode whose sums stay within a word, the peak is the largest prefix sum. -/
theorem exists_peaked (fresh : ctx.counter.peak = ctx.counter.current) (es : List TraceEvent)
    (nonneg : ∀ k ≤ es.length, 0 ≤ prefixSum es k)
    (fits : ∀ k ≤ es.length, ctx.counter.current.toNat + prefixSum es k ≤ maxWord) :
    ∃ k, Peaked ctx es k := by
  induction es using List.reverseRecOn with
  | nil => exact ⟨0, peaked_nil fresh⟩
  | append_singleton es e ih =>
      have shorter {j : Nat} (hj : j ≤ es.length) : j ≤ (es ++ [e]).length := by
        simp only [List.length_append]
        omega
      obtain ⟨k, h⟩ := ih
        (fun j hj => by simpa [prefixSum_append [e] hj] using nonneg j (shorter hj))
        (fun j hj => by simpa [prefixSum_append [e] hj] using fits j (shorter hj))
      exact peaked_snoc h nonneg fits

end Context

namespace Replay

/-- What a snapshot says of a compilation before which the counter was `before`, whose sums are
highest after `k` events. -/
structure Describes (c : TraceCompilation) (before : PeakCounter) (k : Nat)
    (peak : PeakSnapshot) : Prop where
  first : FirstPeak c.events k
  total : (peak.total.toNat : Int) = prefixSum c.events k
  node : 0 < prefixSum c.events k →
    peak.nodeBytes.toNat = level (· == .node) before.node.toNat (c.events.take k)
  resource : 0 < prefixSum c.events k →
    peak.resourceBytes.toNat = level (· == .resource) before.resource.toNat (c.events.take k)
  live : 0 < prefixSum c.events k →
    peak.liveNodes =
      if c.compiler = .c2 then lastLive (c.events.take k) else before.liveNodesAtPeak
  kept : prefixSum c.events k = 0 →
    peak.nodeBytes = before.nodeAtPeak ∧ peak.resourceBytes = before.resourceAtPeak ∧
      peak.liveNodes = before.liveNodesAtPeak

variable (f : Flavour) {config : StatConfig} (site : Site) (ctx : Context) {c : TraceCompilation}

/-- The counter of a tracked compilation before its first event. -/
theorem begun_counter_of_tracked (tracked : tracks config c = true) :
    (begun config site ctx c).counter = ctx.counter.restart := by
  rw [begun_counter, if_pos tracked]

theorem sound_begun_of_tracked (tracked : tracks config c = true) :
    (begun config site ctx c).counter.Sound := by
  rw [begun_counter_of_tracked site ctx tracked]
  exact PeakCounter.sound_restart _

theorem total_ended (tracked : tracks config c = true) {k : Nat}
    (peaked : Context.Peaked (begun config site ctx c) c.events k) :
    ((ended config site ctx c).counter.sinceStart.toNat : Int) = prefixSum c.events k := by
  have start : (ended config site ctx c).counter.start = ctx.counter.current := by
    rw [ended, Context.foldl_after_start, begun_counter_of_tracked site ctx tracked]
    rfl
  have below : (ended config site ctx c).counter.start ≤ (ended config site ctx c).counter.peak :=
    (Context.sound_foldl_after c.events (sound_begun_of_tracked site ctx tracked)).start_le
  have peak : ((ended config site ctx c).counter.peak.toNat : Int) =
      ctx.counter.current.toNat + prefixSum c.events k := by
    rw [ended, peaked.peak, begun_current]
  rw [PeakCounter.sinceStart, if_pos below, UInt64.toNat_sub_of_le _ _ below, start]
  rw [UInt64.le_iff_toNat_le, start] at below
  omega

theorem live_ended (tracked : tracks config c = true) {k : Nat} (pos : 0 < k)
    (peaked : Context.Peaked (begun config site ctx c) c.events k) :
    (ended config site ctx c).counter.liveNodesAtPeak =
      if c.compiler = .c2 then lastLive (c.events.take k) else ctx.counter.liveNodesAtPeak := by
  have task := begun_task config site ctx c
  split
  · next c2 =>
      refine (peaked.sampled pos).2.2 _ ?_
      rw [Context.foldl_after_task, task]
      exact CompileTask.nodeSource_c2 c2
  · next other =>
      have silent : ∀ t ∈ (begun config site ctx c).task, t.kind ≠ .c2 := by
        intro t mem
        rw [task] at mem
        cases mem
        exact other
      rw [ended, Context.foldl_after_liveNodes c.events silent,
        begun_counter_of_tracked site ctx tracked]
      rfl

/-- The snapshot of a tracked compilation describes it. -/
theorem exists_describes (time : Seconds) (tracked : tracks config c = true)
    (nonneg : ∀ k ≤ c.events.length, 0 ≤ prefixSum c.events k)
    (fits : ∀ k ≤ c.events.length, ctx.counter.current.toNat + prefixSum c.events k ≤ maxWord) :
    ∃ k, Describes c ctx.counter k (commitOf config site ctx c time).peak := by
  have begins := begun_counter_of_tracked site ctx tracked
  have fresh : (begun config site ctx c).counter.peak =
      (begun config site ctx c).counter.current := by
    rw [begins]
    rfl
  obtain ⟨k, peaked⟩ := Context.exists_peaked fresh c.events nonneg (by rwa [begun_current])
  have pos (h : 0 < prefixSum c.events k) : 0 < k := by
    cases Nat.eq_zero_or_pos k with
    | inl eq =>
        subst eq
        rw [prefixSum_zero] at h
        exact absurd h (Int.lt_irrefl 0)
    | inr pos =>
        exact pos
  refine ⟨k, peaked.first, total_ended site ctx tracked peaked, ?_, ?_, ?_, ?_⟩
  · intro h
    refine (congrArg UInt64.toNat (peaked.sampled (pos h)).1).trans ?_
    rw [Context.foldl_after_node, begins]
    rfl
  · intro h
    refine (congrArg UInt64.toNat (peaked.sampled (pos h)).2.1).trans ?_
    rw [Context.foldl_after_resource, begins]
    rfl
  · intro h
    exact live_ended site ctx tracked (pos h) peaked
  · intro h
    have zero : k = 0 := by
      cases Nat.eq_zero_or_pos k with
      | inl zero =>
          exact zero
      | inr pos =>
          have := peaked.first.first 0 pos
          rw [prefixSum_zero, h] at this
          exact absurd this (Int.lt_irrefl 0)
    have kept := peaked.kept zero
    rw [begins] at kept
    exact kept

/-- A tracked compilation whose sums are never negative and fit a word, on whatever worker: its
record gets one commit, which describes the compilation, and the worker's bytes move by the sum of
its deltas. -/
theorem commit_describes_compilation {table : StatTable} (on : site.service.On table)
    (time : Seconds) (tracked : tracks config c = true)
    (nonneg : ∀ k ≤ c.events.length, 0 ≤ prefixSum c.events k)
    (fits : ∀ k ≤ c.events.length, ctx.counter.current.toNat + prefixSum c.events k ≤ maxWord) :
    ∃ site' ctx' m commit k,
      compileOne f config site ctx c time = .ok (true, site', ctx') ∧
      m.texts = nameOf c ∧
      site'.service.On (table.upsert m commit) ∧
      site'.service.get? m = some (((table.get? m).getD (.fresh m)).apply commit) ∧
      commit.kind = c.compiler ∧ commit.thread = ctx.thread ∧ commit.time = time ∧
      Describes c ctx.counter k commit.peak ∧
      (ctx'.counter.current.toNat : Int) =
        ctx.counter.current.toNat + prefixSum c.events c.events.length := by
  have enough : Affordable ctx.counter.current.toNat c.events :=
    affordable_of_fits (fun k hk => Int.add_nonneg (Int.natCast_nonneg _) (nonneg k hk)) fits
  obtain ⟨k, describes⟩ := exists_describes site ctx time tracked nonneg fits
  have stored := left_on f config site ctx c time on tracked
  refine ⟨left f config site ctx c time table, (ended config site ctx c).clearTask,
    (interned site ctx c).1, commitOf config site ctx c time, k, ?_, ?_, stored, ?_, rfl, ?_, rfl,
    describes, ?_⟩
  · rw [compileOne_on f on (sound_begun_of_tracked site ctx tracked) enough time, tracked]
  · exact SymbolStore.internMethod_texts _ _ _ _
  · rw [Service.get?, stored.table]
    exact StatTable.get?_upsert_self _ _ _
  · exact ended_thread config site ctx c
  · have current := begun_current config site ctx c
    rw [← current]
    exact Context.foldl_after_current_exact nonneg (by rwa [current])

/-- A worker that earlier compilations left with bytes and samples of their own. -/
def usedWorker : Context :=
  ⟨⟨1⟩, ⟨100, 40, 250, 30, 5, 70, 20, 9⟩, none⟩

/-- Its sums are highest after the third event, and again after the fourth. -/
def growing : TraceCompilation where
  owner := "A"
  method := "run"
  signature := "()V"
  compiler := .c2
  directive := some .collecting
  events := [⟨50, .node, some 3⟩, ⟨-20, .node, none⟩, ⟨30, .resource, none⟩,
    ⟨0, .other, some 8⟩, ⟨-60, .node, none⟩]

theorem commit_describes_used_worker :
    ∃ site' ctx' m commit,
      compileOne .debug .default (Site.new ⟨true, []⟩).turnOn usedWorker growing .zero =
        .ok (true, site', ctx') ∧
      site'.service.On (StatTable.empty.upsert m commit) ∧
      commit.peak.total.toNat = 60 ∧ commit.peak.nodeBytes.toNat = 60 ∧
      commit.peak.resourceBytes.toNat = 35 ∧ commit.peak.liveNodes = 3 ∧
      ctx'.counter.current.toNat = 100 := by
  have tracked : tracks .default growing = true := by decide
  obtain ⟨site', ctx', m, commit, k, run, -, table, -, -, -, -, describes, current⟩ :=
    commit_describes_compilation .debug (Site.new ⟨true, []⟩).turnOn usedWorker ⟨rfl, rfl⟩ .zero
      tracked (by decide) (by decide)
  obtain rfl : k = 3 := firstPeak_unique describes.first ⟨by decide, by decide, by decide⟩
  have highest : prefixSum growing.events 3 = 60 := by decide
  have balanced : prefixSum growing.events growing.events.length = 0 := by decide
  have pos : 0 < prefixSum growing.events 3 := by decide
  have total := describes.total
  rw [highest] at total
  rw [balanced] at current
  refine ⟨site', ctx', m, commit, run, table, ?_, ?_, ?_, ?_, ?_⟩
  · exact Int.ofNat.inj total
  · exact (describes.node pos).trans (by decide)
  · exact (describes.resource pos).trans (by decide)
  · exact (describes.live pos).trans (by decide)
  · exact Int.ofNat.inj current

end Replay

end ArenaPeak
