import ArenaPeak.Proofs.Scheduling

/-!
The bytes under each category against the bytes in all. On a worker whose compilations free what
they allocate under every category, a new peak is sampled with all its parts, so the node and
resource bytes of a record are within its total. A compilation that reaches no new peak has a total
of zero and samples nothing, so its record shows the categories of an earlier one.
-/

namespace ArenaPeak

open Trace

namespace Trace

/-- Neither the node nor the resource arenas. -/
def isRest (tag : ArenaTag) : Bool :=
  tag != .node && tag != .resource

/-- A compilation that frees what it allocates in node arenas, in resource arenas and in the rest. -/
structure Parted (c : TraceCompilation) : Prop where
  node : Returns (· == .node) c.events
  resource : Returns (· == .resource) c.events
  rest : Returns isRest c.events
  fits : ∀ k ≤ c.events.length, prefixSum c.events k ≤ maxWord

instance (c : TraceCompilation) : Decidable (Parted c) :=
  decidable_of_iff
    (Returns (· == .node) c.events ∧ Returns (· == .resource) c.events ∧
      Returns isRest c.events ∧ ∀ k ≤ c.events.length, prefixSum c.events k ≤ maxWord)
    ⟨fun h => ⟨h.1, h.2.1, h.2.2.1, h.2.2.2⟩, fun h => ⟨h.node, h.resource, h.rest, h.fits⟩⟩

theorem sum_parts (es : List TraceEvent) :
    sum (fun _ => true) es = sum (· == .node) es + sum (· == .resource) es + sum isRest es := by
  induction es with
  | nil => rfl
  | cons e es ih =>
      have parts : share (fun _ => true) e =
          share (· == .node) e + share (· == .resource) e + share isRest e := by
        cases tag : e.tag <;> simp [share, isRest, tag]
      simp only [sum, ih, parts]
      omega

theorem Parted.balanced {c : TraceCompilation} (h : Parted c) : Balanced c where
  total :=
    { nonneg := by
        intro k hk
        rw [sum_parts]
        have node := h.node.nonneg k hk
        have resource := h.resource.nonneg k hk
        have rest := h.rest.nonneg k hk
        omega
      zero := by
        rw [sum_parts, h.node.zero, h.resource.zero, h.rest.zero]
        rfl }
  node := h.node
  resource := h.resource
  fits := h.fits

/-- Levels of a count that starts at zero are within its sums. -/
theorem Returns.level_le {counts : ArenaTag → Bool} {es : List TraceEvent}
    (h : Returns counts es) {k : Nat} (hk : k ≤ es.length) :
    (level counts 0 (es.take k) : Int) ≤ sum counts (es.take k) := by
  have bounded : (level counts 0 (es.take k) : Int) ≤ 0 + sum counts (es.take k) := by
    refine level_le_sum (Int.le_refl 0) ?_
    intro j hj
    rw [List.length_take] at hj
    rw [List.take_take, Int.zero_add]
    exact h.nonneg _ (by omega)
  rwa [Int.zero_add] at bounded

end Trace

namespace Replay

/-- A record that a compilation wrote: its total is the largest sum of the deltas, and if that is
positive, the node and resource bytes are within the total. -/
structure Divides (c : TraceCompilation) (r : StatRecord) : Prop where
  named : r.method.texts = nameOf c
  divided : ∃ k, FirstPeak c.events k ∧ (r.total.toNat : Int) = prefixSum c.events k ∧
    (0 < prefixSum c.events k → r.nodeAtPeak.toNat + r.resourceAtPeak.toNat ≤ r.total.toNat)

variable {f : Flavour} {config : StatConfig} {c : TraceCompilation}

theorem divides_apply {commit : Commit} (parted : Parted c) (portrays : Portrays c commit)
    {r : StatRecord} (named : r.method.texts = nameOf c) : Divides c (r.apply commit) := by
  obtain ⟨-, before, k, idle, describes⟩ := portrays
  refine ⟨named, k, describes.first, describes.total, ?_⟩
  intro grown
  have bound := describes.first.le_length
  have node := parted.node.level_le bound
  have resource := parted.resource.level_le bound
  have rest := parted.rest.nonneg k bound
  have whole : prefixSum c.events k = _ := sum_parts (c.events.take k)
  have total := describes.total
  have sampledNode := describes.node grown
  have sampledResource := describes.resource grown
  rw [idle.node] at sampledNode
  rw [idle.resource] at sampledResource
  simp only [StatRecord.apply, sampledNode, sampledResource]
  omega

/-- Every record of a site is one that a tracked compilation wrote. -/
def DividedBy (config : StatConfig) (cs : List TraceCompilation) (site : Site) : Prop :=
  ∀ table, site.service.table = some table → ∀ r ∈ table.records,
    ∃ c ∈ cs, tracks config c = true ∧ Divides c r

end Replay

namespace StatTable

variable {st : SymbolStore} {t : StatTable} {m : Method} {p : Place}

/-- A record after a commit is an old one, or the commit applied to a record of its method. -/
theorem mem_upsertIn_cases {m : Method} {commit : Commit} {rs : List StatRecord} {r : StatRecord}
    (h : r ∈ upsertIn m commit rs) :
    r ∈ rs ∨ ∃ r', r = r'.apply commit ∧ (r' = .fresh m ∨ r' ∈ rs ∧ r'.method.same m = true) := by
  induction rs with
  | nil =>
      obtain rfl : r = (StatRecord.fresh m).apply commit := by simpa [upsertIn] using h
      exact .inr ⟨_, rfl, .inl rfl⟩
  | cons head rs ih =>
      simp only [upsertIn] at h
      split at h
      · next same =>
          cases List.mem_cons.mp h with
          | inl eq =>
              exact .inr ⟨head, eq, .inr ⟨List.mem_cons_self, same⟩⟩
          | inr old =>
              exact .inl (List.mem_cons_of_mem _ old)
      · cases List.mem_cons.mp h with
        | inl eq =>
            subst eq
            exact .inl List.mem_cons_self
        | inr later =>
            cases ih later with
            | inl old =>
                exact .inl (List.mem_cons_of_mem _ old)
            | inr applied =>
                obtain ⟨r', eq, from'⟩ := applied
                refine .inr ⟨r', eq, ?_⟩
                exact from'.imp_right fun old => ⟨List.mem_cons_of_mem _ old.1, old.2⟩

end StatTable

namespace Replay

variable {f : Flavour} {config : StatConfig} {c : TraceCompilation} {cs : List TraceCompilation}
variable {site : Site} {ctx : Context} {table : StatTable}

theorem dividedBy_left (h : site.Sound) (on : site.service.On table) (time : Seconds)
    (divided : DividedBy config cs site) (idle : ctx.counter.Idle) (parted : Parted c)
    (mem : c ∈ cs) : DividedBy config cs (left f config site ctx c time table) := by
  intro table' there r hr
  by_cases tracked : tracks config c = true
  · rw [(left_on f config site ctx c time on tracked).table] at there
    cases there
    have portrays : Portrays c (commitOf config site ctx c time) :=
      portrays_commitOf tracked idle parted.balanced
    have named : (interned site ctx c).1.texts = nameOf c := SymbolStore.internMethod_texts _ _ _ _
    cases StatTable.mem_upsertIn_cases hr with
    | inl old =>
        exact divided table on.table r old
    | inr applied =>
        obtain ⟨r', rfl, source⟩ := applied
        refine ⟨c, mem, tracked, divides_apply parted portrays ?_⟩
        cases source with
        | inl fresh =>
            rw [fresh]
            exact named
        | inr known =>
            obtain ⟨p, placed⟩ := (recorded_interned ctx c h on.table).placed r' known.1
            have here := interned_at ctx c h
            rw [placed.1, placed.place_eq (sound_interned ctx c h) here known.2]
            rfl
  · rw [left_untracked f config site ctx c time table tracked] at there
    exact divided table' there r hr

variable (f config) in
theorem dividedBy_play {p : Progress} (running : p.Running) (idle : p.Idle)
    (divided : DividedBy config cs p.site) {turns : List Turn}
    (staffed : ∀ turn ∈ turns, turn.worker < p.workers.length)
    (enough : ∀ turn ∈ turns, ∀ n, Affordable n turn.compilation.events)
    (parted : ∀ turn ∈ turns, Parted turn.compilation)
    (mem : ∀ turn ∈ turns, turn.compilation ∈ cs) :
    ∃ p', play f config p turns = .ok p' ∧ p'.Running ∧ DividedBy config cs p'.site := by
  induction turns generalizing p with
  | nil => exact ⟨p, rfl, running, divided⟩
  | cons head turns ih =>
      obtain ⟨i, c, time⟩ := head
      rw [List.forall_mem_cons] at staffed enough parted mem
      obtain ⟨p₁, ctx, table, worker, on, first, running₁, site, workers⟩ :=
        turn_running f config running staffed.1 enough.1 time
      have length : p₁.workers.length = p.workers.length := by rw [workers, List.length_set]
      have divided₁ : DividedBy config cs p₁.site := by
        rw [site]
        exact dividedBy_left running.site on time divided (idle ctx worker) parted.1 mem.1
      obtain ⟨p', rest, running', divided'⟩ :=
        ih running₁ (idle_turn idle worker parted.1.balanced workers) divided₁
          (by rw [length]; exact staffed.2) enough.2 parted.2 mem.2
      refine ⟨p', ?_, running', divided'⟩
      rw [play, first]
      exact rest

/-- One worker replays a valid trace whose compilations free what they allocate under every
category: each record in the end is one that a tracked compilation of its name wrote, and unless
its total is zero the node and resource bytes are within the total. -/
theorem categories_within_total (site : Site) (reachable : site.Reachable f)
    (empty : site.service.table = some .empty) {t : Trace} (valid : t.validate = .ok ())
    (parted : ∀ c ∈ t.compilations, Parted c) (course : Course) :
    ∃ outcome site' table, replay f config site t 1 course = .ok (outcome, site') ∧
      site'.service.On table ∧
      ∀ r ∈ table.records, ∃ c ∈ t.compilations, tracks config c = true ∧ Divides c r := by
  obtain ⟨turns, schedule, replayed⟩ := exists_schedule_replay f config site t 1 course
  obtain ⟨switched, sound⟩ := reachable.in_order
  have running : (Progress.start site
      (workerCount (1 : UInt64).toNat t.compilations.length)).Running :=
    ⟨sound_start site _, sound_site_start sound _, .empty, switched.on empty⟩
  have none : DividedBy config t.compilations site := by
    intro table there r mem
    rw [empty] at there
    cases there
    cases mem
  obtain ⟨p, run, running', divided⟩ := dividedBy_play f config running
    (idle_start site _) none (schedule.staffed_start site) (schedule.affordable valid)
    (fun turn mem => parted _ (schedule.mem_trace mem)) fun turn mem => schedule.mem_trace mem
  obtain ⟨table, on⟩ := running'.on
  refine ⟨⟨t.compilations.length, p.tracked⟩, p.site, table, ?_, on, divided table on.table⟩
  rw [replayed, replayIn, valid]
  simp only [run]

/-- The second compilation allocates nothing. -/
def quietAfterwards : Trace where
  threads := none
  compilations :=
    [⟨"A", "run", "()V", .c2, some .collecting,
        [⟨60, .node, none⟩, ⟨40, .resource, none⟩, ⟨8, .handle, none⟩, ⟨-40, .resource, none⟩,
          ⟨-60, .node, none⟩, ⟨-8, .handle, none⟩]⟩,
      ⟨"B", "run", "()V", .c2, some .collecting, []⟩]

theorem categories_within_total_quiet :
    ∃ outcome site' table, replay .debug .default
        (Session.run .debug (.new ⟨true, []⟩) [.enable]).2.site quietAfterwards 1 ⟨[0], halves⟩ =
          .ok (outcome, site') ∧
      site'.service.On table ∧
      ∀ r ∈ table.records, ∃ c ∈ quietAfterwards.compilations,
        tracks .default c = true ∧ Divides c r :=
  categories_within_total (Session.run .debug (.new ⟨true, []⟩) [.enable]).2.site
    (.session ⟨true, []⟩ [.enable]) rfl (show quietAfterwards.validate = .ok () by decide)
    (show ∀ c ∈ quietAfterwards.compilations, Parted c by decide) ⟨[0], halves⟩

/-- The record of the second compilation keeps the samples of the first, with a total of zero. -/
theorem categories_exceed_total_quiet :
    quietAfterwards.validate = .ok () ∧ (∀ c ∈ quietAfterwards.compilations, Parted c) ∧
      ∃ outcome site' table r, replay .debug .default
          (Session.run .debug (.new ⟨true, []⟩) [.enable]).2.site quietAfterwards 1 ⟨[0], halves⟩ =
            .ok (outcome, site') ∧
        site'.service.On table ∧ r ∈ table.records ∧
        r.method.texts = ⟨"B", "run", "()V"⟩ ∧
        r.total.toNat < r.nodeAtPeak.toNat + r.resourceAtPeak.toNat := by
  exact ⟨by decide, by decide, _, _, _,
    ⟨⟨⟨3, "B"⟩, ⟨1, "run"⟩, ⟨2, "()V"⟩⟩, .c2, halves 1, 1, some ⟨1⟩, 0, 60, 40, 0⟩,
    rfl, ⟨rfl, rfl⟩, by decide, rfl, by decide⟩

end Replay

end ArenaPeak
