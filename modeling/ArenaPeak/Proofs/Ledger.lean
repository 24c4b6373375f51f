import ArenaPeak.Proofs.Records
import ArenaPeak.Proofs.SessionSteps
import Mathlib.Data.List.Dedup

/-!
The commits of a session, written down beside it. A step that ends a compilation adds what it
commits, under the place the thread's method was interned from when the task was set; the table of
records is never looked at. Whatever steps are taken, the table holds one record for each place that
was committed to, with the number of its commits and the content of the last of them.
-/

namespace ArenaPeak

structure Ledger where
  session : Session
  /-- Where the method of each thread's task was interned from. -/
  origins : Nat → Option Place
  /-- The newest commit comes first. -/
  commits : List (Option Place × Commit)

namespace Ledger

def start (inline : InlineOutput) : Ledger :=
  ⟨.new inline, fun _ => none, []⟩

/-- Setting and clearing a task are the steps that change where a thread's method is from. -/
def originsAfter (f : Flavour) (L : Ledger) : Session.Step → Nat → Option Place
  | .setTask i table name kind directive live =>
      match (L.session.step f (.setTask i table name kind directive live)).1 with
      | .ok _ => Function.update L.origins i (some ⟨table, name⟩)
      | .error _ => L.origins
  | .clearTask i =>
      match (L.session.step f (.clearTask i)).1 with
      | .ok _ => Function.update L.origins i none
      | .error _ => L.origins
  | _ => L.origins

def commitsAfter (f : Flavour) (L : Ledger) (st : Session.Step) : List (Option Place × Commit) :=
  match L.session.commit? f st with
  | some (i, c) => (L.origins i, c) :: L.commits
  | none => L.commits

def step (f : Flavour) (L : Ledger) (st : Session.Step) : Ledger :=
  ⟨(L.session.step f st).2, L.originsAfter f st, L.commitsAfter f st⟩

/-- The ledger of a session that has taken some steps. -/
def after (f : Flavour) (inline : InlineOutput) (steps : List Session.Step) : Ledger :=
  steps.foldl (step f) (start inline)

/-- The commits to a place, the newest first. -/
def commitsTo (p : Place) (commits : List (Option Place × Commit)) : List Commit :=
  (commits.filter (·.1 == some p)).map (·.2)

/-- A record has the number of the commits to it and the content of the newest; without commits
there is no record. -/
def Tells (r? : Option StatRecord) : List Commit → Prop
  | [] => r? = none
  | c :: cs => ∃ r, r? = some r ∧ r.recompilations = UInt32.ofNat (cs.length + 1) ∧
      r.kind = c.kind ∧ r.thread = some c.thread ∧ r.time = c.time ∧ r.total = c.peak.total ∧
      r.nodeAtPeak = c.peak.nodeBytes ∧ r.resourceAtPeak = c.peak.resourceBytes ∧
      r.liveNodesAtPeak = c.peak.liveNodes

/-- A table is what a list of commits comes to. -/
structure Accounts (st : SymbolStore) (t : StatTable) (commits : List (Option Place × Commit)) :
    Prop where
  recorded : Recorded st t
  tells : ∀ p, Tells (t.recordAt st p) (commitsTo p commits)
  size : t.size = (commits.map (·.1)).dedup.length

structure Sound (L : Ledger) : Prop where
  switched : L.session.service.Switched
  symbols : L.session.symbols.Sound
  placed : ∀ i m, L.session.methodOf i = some m →
    ∃ p, L.origins i = some p ∧ m.At L.session.symbols p
  known : none ∉ L.commits.map (·.1)
  off : L.session.service.table = none → L.commits = []
  on : ∀ t, L.session.service.table = some t → Accounts L.session.symbols t L.commits

variable {p q : Place} {c : Commit} {commits : List (Option Place × Commit)}

/-! ### One more commit -/

theorem commitsTo_cons (p q : Place) (c : Commit) (commits : List (Option Place × Commit)) :
    commitsTo q ((some p, c) :: commits) =
      if q = p then c :: commitsTo q commits else commitsTo q commits := by
  by_cases same : q = p
  · simp [commitsTo, same]
  · have other : ¬ p = q := fun eq => same eq.symm
    simp [commitsTo, same, other]

theorem commitsTo_eq_nil : commitsTo p commits = [] ↔ some p ∉ commits.map (·.1) := by
  simp only [commitsTo, List.map_eq_nil_iff, List.filter_eq_nil_iff, beq_iff_eq, List.mem_map,
    not_exists, not_and]

theorem tells_cons {r? : Option StatRecord} {cs : List Commit} (h : Tells r? cs) (m : Method)
    (c : Commit) : Tells (some ((r?.getD (.fresh m)).apply c)) (c :: cs) := by
  refine ⟨_, rfl, ?_, rfl, rfl, rfl, rfl, rfl, rfl, rfl⟩
  cases cs with
  | nil =>
      obtain rfl : r? = none := h
      rfl
  | cons c' cs =>
      obtain ⟨r, rfl, count, -⟩ := h
      simp [StatRecord.apply, count, UInt32.ofNat_add]

theorem tells_isSome {r? : Option StatRecord} {cs : List Commit} (h : Tells r? cs) :
    r?.isSome = true ↔ cs ≠ [] := by
  cases cs with
  | nil =>
      obtain rfl : r? = none := h
      simp
  | cons c cs =>
      obtain ⟨r, rfl, -⟩ := h
      simp

theorem accounts_empty (st : SymbolStore) : Accounts st .empty [] where
  recorded := .empty st
  tells _ := rfl
  size := rfl

theorem accounts_of_keeps {st st' : SymbolStore} {t : StatTable} (h : Accounts st t commits)
    (sound : st.Sound) (keeps : st.Keeps st') : Accounts st' t commits where
  recorded := h.recorded.mono sound keeps
  tells p := by
    rw [StatTable.recordAt_congr sound h.recorded keeps p]
    exact h.tells p
  size := h.size

theorem accounts_upsert {st : SymbolStore} {t : StatTable} {m : Method} (h : Accounts st t commits)
    (sound : st.Sound) (hm : m.At st p) (c : Commit) :
    Accounts (st.pinMethod m) (t.upsert m c) ((some p, c) :: commits) := by
  have kept := accounts_of_keeps h sound (SymbolStore.keeps_pinMethod st m)
  have sound' := SymbolStore.sound_pinMethod sound hm
  have pinned : ∀ s ∈ m.symbols, (st.pinMethod m).isPermanent s = true :=
    fun s hs => SymbolStore.isPermanent_pinMethod_self st hs
  refine ⟨StatTable.recorded_upsert kept.recorded (hm.pinMethod m) pinned c, ?_, ?_⟩
  · intro q
    rw [StatTable.recordAt_upsert sound' kept.recorded (hm.pinMethod m) pinned c q, commitsTo_cons]
    by_cases same : q = p
    · rw [if_pos same, if_pos same, same]
      exact tells_cons (kept.tells p) m c
    · rw [if_neg same, if_neg same]
      exact kept.tells q
  · rw [StatTable.size_upsert, StatTable.get?_eq_recordAt sound' kept.recorded (hm.pinMethod m),
      h.size, List.map_cons]
    have known := tells_isSome (kept.tells p)
    rw [Ne, commitsTo_eq_nil, Classical.not_not] at known
    by_cases old : some p ∈ commits.map (·.1)
    · rw [if_pos (known.mpr old), List.dedup_cons_of_mem old]
    · rw [if_neg (fun some => old (known.mp some)), List.dedup_cons_of_notMem old, List.length_cons]

/-! ### One more step -/

theorem sound_start (inline : InlineOutput) : (start inline).Sound where
  switched := Service.switched_new inline
  symbols := SymbolStore.sound_empty
  placed _ _ works := by cases works
  known := by simp [start]
  off _ := rfl
  on _ enabled := by cases enabled

variable {f : Flavour} {L : Ledger} {s' : Session}

/-- A step that leaves the records alone and keeps the symbols of recorded methods. -/
theorem Sound.carry (h : L.Sound) {origins : Nat → Option Place}
    (enabled : s'.service.enabled = L.session.service.enabled)
    (table : s'.service.table = L.session.service.table) (symbols : s'.symbols.Sound)
    (keeps : L.session.symbols.Keeps s'.symbols)
    (placed : ∀ i m, s'.methodOf i = some m → ∃ p, origins i = some p ∧ m.At s'.symbols p) :
    Sound ⟨s', origins, L.commits⟩ where
  switched := by
    rw [Service.Switched, enabled, table]
    exact h.switched
  symbols := symbols
  placed := placed
  known := h.known
  off none := h.off (table ▸ none)
  on t there := accounts_of_keeps (h.on t (table ▸ there)) h.symbols keeps

theorem Sound.quiet (h : L.Sound) (quiet : L.session.Quiet s') :
    Sound ⟨s', L.origins, L.commits⟩ := by
  refine h.carry quiet.enabled quiet.table ?_ ?_ ?_
  · rw [quiet.symbols]
    exact h.symbols
  · rw [quiet.symbols]
    exact SymbolStore.keeps_refl _
  · intro i m works
    rw [quiet.methods] at works
    rw [quiet.symbols]
    exact h.placed i m works

theorem Sound.intern (h : L.Sound) (table : Nat) (name : MethodName)
    (same : s'.service = L.session.service) (methods : s'.methodOf = L.session.methodOf)
    (symbols : s'.symbols = (L.session.symbols.internMethod L.session.held table name).2) :
    Sound ⟨s', L.origins, L.commits⟩ := by
  refine h.carry (same ▸ rfl) (same ▸ rfl) ?_ ?_ ?_
  · rw [symbols]
    exact SymbolStore.sound_internMethod h.symbols _ _ _
  · rw [symbols]
    exact SymbolStore.keeps_internMethod h.symbols _ _ _
  · intro i m works
    rw [methods] at works
    obtain ⟨p, origin, placed⟩ := h.placed i m works
    rw [symbols]
    exact ⟨p, origin, placed.internMethod h.symbols (Session.held_of_methodOf works) table name⟩

theorem Sound.purge (h : L.Sound) (table : Nat) :
    Sound ⟨{ L.session with symbols := L.session.symbols.purge L.session.held table },
      L.origins, L.commits⟩ := by
  refine h.carry rfl rfl (SymbolStore.sound_purge h.symbols _ _) (SymbolStore.keeps_purge _ _ _) ?_
  intro i m works
  obtain ⟨p, origin, placed⟩ := h.placed i m works
  exact ⟨p, origin, placed.purge (Session.held_of_methodOf works) table⟩

theorem Sound.enable (h : L.Sound) (none : L.session.service.table = none) :
    Sound ⟨{ L.session with
        service := { L.session.service with enabled := true, table := some .empty } },
      L.origins, L.commits⟩ where
  switched := rfl
  symbols := h.symbols
  placed := h.placed
  known := h.known
  off absent := by cases absent
  on t there := by
    cases there
    rw [h.off none]
    exact accounts_empty _

theorem Sound.committed (h : L.Sound) {i : Nat} {m : Method} {c : Commit}
    (committed : L.session.Committed s' i m c) :
    Sound ⟨s', L.origins, (L.origins i, c) :: L.commits⟩ := by
  obtain ⟨t, on, on'⟩ := committed.table
  obtain ⟨p, origin, placed⟩ := h.placed i m committed.works
  refine ⟨on'.switched, ?_, ?_, ?_, ?_, ?_⟩
  · rw [committed.symbols]
    exact SymbolStore.sound_pinMethod h.symbols placed
  · intro j m' works
    rw [committed.methods] at works
    obtain ⟨q, origin', placed'⟩ := h.placed j m' works
    rw [committed.symbols]
    exact ⟨q, origin', placed'.pinMethod m⟩
  · rw [List.map_cons, List.mem_cons, origin]
    rintro (new | old)
    · cases new
    · exact h.known old
  · intro none
    rw [on'.table] at none
    cases none
  · intro t' there
    rw [on'.table] at there
    cases there
    rw [committed.symbols, origin]
    exact accounts_upsert (h.on t on.table) h.symbols placed c

theorem Sound.ends (h : L.Sound) {st : Session.Step} (ends : L.session.Ends f st)
    (origins : L.originsAfter f st = L.origins) : (L.step f st).Sound := by
  rw [step, origins, commitsAfter]
  cases ends with
  | inl idle =>
      obtain ⟨none, quiet⟩ := idle
      rw [none]
      exact h.quiet quiet
  | inr active =>
      obtain ⟨i, m, c, commits, committed⟩ := active
      rw [commits]
      exact h.committed committed

theorem Sound.setTask (h : L.Sound) (i table : Nat) (name : MethodName) (kind : CompilerKind)
    (directive : Directive) (live : Option UInt32) :
    (L.step f (.setTask i table name kind directive live)).Sound := by
  cases Session.setTask_cases f L.session i table name kind directive live with
  | inl refused =>
      obtain ⟨e, failed⟩ := refused
      have stays : L.step f (.setTask i table name kind directive live) = L := by
        simp only [step, originsAfter, failed]
        rfl
      rw [stays]
      exact h
  | inr taken =>
      obtain ⟨c, there, run⟩ := taken
      simp only [step, originsAfter, run]
      refine h.carry rfl rfl (SymbolStore.sound_internMethod h.symbols _ _ _)
        (SymbolStore.keeps_internMethod h.symbols _ _ _) ?_
      intro j m works
      rw [Session.methodOf_putWorker (w := ⟨c, none⟩) (by exact there)] at works
      by_cases same : j = i
      · subst same
        rw [Function.update_self] at works
        cases works
        refine ⟨⟨table, name⟩, Function.update_self _ _ _, ?_⟩
        exact SymbolStore.internMethod_at h.symbols L.session.held ⟨table, name⟩
      · rw [Function.update_of_ne same] at works
        obtain ⟨p, origin, placed⟩ := h.placed j m works
        refine ⟨p, (Function.update_of_ne same _ _).trans origin, ?_⟩
        have held := Session.held_of_methodOf (s := L.session) works
        exact placed.internMethod h.symbols held table name

theorem Sound.clearTask (h : L.Sound) (i : Nat) : (L.step f (.clearTask i)).Sound := by
  cases Session.clearTask_cases f L.session i with
  | inl refused =>
      obtain ⟨e, failed⟩ := refused
      have stays : L.step f (.clearTask i) = L := by
        simp only [step, originsAfter, failed]
        rfl
      rw [stays]
      exact h
  | inr taken =>
      obtain ⟨c, there, run⟩ := taken
      simp only [step, originsAfter, run]
      refine h.carry rfl rfl h.symbols (SymbolStore.keeps_refl _) ?_
      intro j m works
      rw [Session.methodOf_putWorker there] at works
      by_cases same : j = i
      · subst same
        rw [Function.update_self] at works
        cases works
      · rw [Function.update_of_ne same] at works
        rw [Function.update_of_ne same]
        exact h.placed j m works

theorem Sound.switchOn (h : L.Sound) : (L.step f .enable).Sound := by
  cases h.switched.cases with
  | inl off =>
      simp only [step, originsAfter, Session.step_enable_off off]
      exact h.enable off.table
  | inr on =>
      obtain ⟨t, on⟩ := on
      simp only [step, originsAfter, Session.step_enable_on on.enabled]
      exact h.quiet (Session.quiet_refl _)

theorem sound_step (h : L.Sound) (st : Session.Step) : (L.step f st).Sound := by
  cases st with
  | enable => exact h.switchOn
  | setTask i table name kind directive live => exact h.setTask i table name kind directive live
  | clearTask i => exact h.clearTask i
  | finish i time => exact h.ends (Session.ends_finish f h.switched i time) rfl
  | close i time => exact h.ends (Session.ends_close f h.switched i time) rfl
  | crash i time => exact h.ends (Session.ends_crash f h.switched i time) rfl
  | lookup table name => exact h.intern table name rfl rfl rfl
  | hold table name => exact h.intern table name rfl rfl rfl
  | purge table => exact h.purge table
  | newContext | task _ | setLive _ _ | start _ | arena _ _ _ | enter _ | report _ _ _ _
  | views _ _ | release _ | liveCount _ => exact h.quiet (Session.quiet_step f L.session rfl)

theorem sound_foldl (h : L.Sound) (steps : List Session.Step) : (steps.foldl (step f) L).Sound := by
  induction steps generalizing L with
  | nil => exact h
  | cons st steps ih => exact ih (sound_step h st)

theorem sound_after (f : Flavour) (inline : InlineOutput) (steps : List Session.Step) :
    (after f inline steps).Sound :=
  sound_foldl (sound_start inline) steps

/-- Keeping a ledger does not change the session. -/
theorem session_foldl (f : Flavour) (L : Ledger) (steps : List Session.Step) :
    (steps.foldl (step f) L).session = (Session.run f L.session steps).2 := by
  induction steps generalizing L with
  | nil => rfl
  | cons st steps ih => exact ih (L.step f st)

/-! ### Looking records up -/

/-- The answer to looking up the method interned now from a place. -/
def lookup (f : Flavour) (s : Session) (p : Place) : Except Session.Failure Session.Answer :=
  (s.step f (.lookup p.table p.name)).1

/-- The records are what the commits come to. -/
structure Faithful (f : Flavour) (L : Ledger) : Prop where
  known : none ∉ L.commits.map (·.1)
  size : L.session.service.size = (L.commits.map (·.1)).dedup.length
  found : ∀ p, ∃ r? permanent, lookup f L.session p = .ok (.found r? permanent) ∧
    Tells r? (commitsTo p L.commits) ∧ (r?.isSome = true → permanent = true)
  /-- Whoever holds what, interning the texts of a record gives its method. -/
  interned : ∀ p r permanent, lookup f L.session p = .ok (.found (some r) permanent) →
    ∀ held, L.session.symbols.internMethod held p.table p.name = (r.method, L.session.symbols)
  /-- Places never share a record, also where the hashes of their methods are equal. -/
  apart : ∀ p q r r' b b', p ≠ q → lookup f L.session p = .ok (.found (some r) b) →
    lookup f L.session q = .ok (.found (some r') b') → r.method.same r'.method = false ∧
      (p.name.parts.Perm q.name.parts → r.method.hash = r'.method.hash)

theorem lookup_eq (f : Flavour) (s : Session) (p : Place) :
    lookup f s p =
      .ok (.found (s.service.get? (s.symbols.internMethod s.held p.table p.name).1)
        ((s.symbols.internMethod s.held p.table p.name).2.isPermanentMethod
          (s.symbols.internMethod s.held p.table p.name).1)) :=
  rfl

/-- The record that a look-up finds is the one at its place. -/
theorem Sound.get?_eq_recordAt (h : L.Sound) (p : Place) :
    L.session.service.get? (L.session.symbols.internMethod L.session.held p.table p.name).1 =
      L.session.service.table.bind (·.recordAt L.session.symbols p) := by
  cases enabled : L.session.service.table with
  | none => simp [Service.get?, enabled]
  | some t =>
      simp only [Service.get?, enabled, Option.bind_some]
      exact StatTable.get?_internMethod h.symbols (h.on t enabled).recorded L.session.held p

theorem Sound.recordAt_of_lookup (h : L.Sound) {r : StatRecord} {b : Bool}
    (found : lookup f L.session p = .ok (.found (some r) b)) :
    ∃ t, L.session.service.table = some t ∧ t.recordAt L.session.symbols p = some r := by
  rw [lookup_eq, h.get?_eq_recordAt] at found
  injection found with found
  injection found with found
  exact Option.bind_eq_some_iff.mp found

/-- Interning the texts of a record gives its method, which is pinned. -/
theorem Sound.internMethod_of_recordAt (h : L.Sound) {t : StatTable} {r : StatRecord}
    (enabled : L.session.service.table = some t)
    (found : t.recordAt L.session.symbols p = some r) (held : List Symbol) :
    L.session.symbols.internMethod held p.table p.name = (r.method, L.session.symbols) ∧
      L.session.symbols.isPermanentMethod r.method = true := by
  have recorded := (h.on t enabled).recorded
  refine ⟨StatTable.internMethod_of_recordAt h.symbols recorded found held, ?_⟩
  exact List.all_eq_true.mpr (recorded.permanent r (StatTable.recordAt_eq_some found).1)

theorem Sound.tells (h : L.Sound) (p : Place) :
    Tells (L.session.service.table.bind (·.recordAt L.session.symbols p))
      (commitsTo p L.commits) := by
  cases enabled : L.session.service.table with
  | none =>
      rw [h.off enabled]
      rfl
  | some t => exact (h.on t enabled).tells p

theorem Sound.size (h : L.Sound) :
    L.session.service.size = (L.commits.map (·.1)).dedup.length := by
  cases enabled : L.session.service.table with
  | none => simp [Service.size, enabled, h.off enabled]
  | some t =>
      simp only [Service.size, enabled]
      exact (h.on t enabled).size

theorem Sound.faithful (h : L.Sound) : L.Faithful f where
  known := h.known
  size := h.size
  found p := by
    refine ⟨_, _, lookup_eq f L.session p, ?_, ?_⟩
    · rw [h.get?_eq_recordAt]
      exact h.tells p
    · rw [h.get?_eq_recordAt]
      intro found
      obtain ⟨r, found⟩ := Option.isSome_iff_exists.mp found
      obtain ⟨t, enabled, found⟩ := Option.bind_eq_some_iff.mp found
      obtain ⟨interned, pinned⟩ := h.internMethod_of_recordAt enabled found L.session.held
      rw [interned]
      exact pinned
  interned p r b found held := by
    obtain ⟨t, enabled, found⟩ := h.recordAt_of_lookup found
    exact (h.internMethod_of_recordAt enabled found held).1
  apart p q r r' b b' ne found found' := by
    obtain ⟨t, enabled, found⟩ := h.recordAt_of_lookup found
    obtain ⟨t', enabled', found'⟩ := h.recordAt_of_lookup found'
    have placed := (StatTable.recordAt_eq_some found).2
    have placed' := (StatTable.recordAt_eq_some found').2
    refine ⟨?_, fun texts => Method.hash_of_perm ?_⟩
    · by_contra same
      exact ne (placed.place_eq h.symbols placed' (by simpa using same))
    · rw [placed.1, placed'.1]
      exact texts

/-- Whatever steps a session takes, its records are what its commits come to. -/
theorem faithful_after (f : Flavour) (inline : InlineOutput) (steps : List Session.Step) :
    (after f inline steps).session = (Session.run f (.new inline) steps).2 ∧
      (after f inline steps).Faithful f :=
  ⟨session_foldl f (start inline) steps, (sound_after f inline steps).faithful⟩

end Ledger

end ArenaPeak
