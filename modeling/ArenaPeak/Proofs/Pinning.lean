import ArenaPeak.Proofs.Operations
import ArenaPeak.Proofs.Registry

/-!
What replays leave in the symbol table. The workers of a replay are gone when it ends, and what is
held then is held by records, whose symbols are pinned. So after any number of replays the texts of
recorded methods are alive, and no others; all other texts of replayed compilations are dead entries
that wait for a purge.
-/

namespace ArenaPeak

namespace SymbolStore

variable {st : SymbolStore} {held : List Symbol} {known pinned : Finset String}

/-- Handles on pinned entries keep nothing alive that is not alive anyway. -/
theorem alive_of_all_permanent (permanent : ∀ s ∈ held, st.isPermanent s = true)
    (e : SymbolEntry) : st.alive held e = st.alive [] e := by
  rw [alive, alive, List.any_nil, Bool.false_or, Bool.or_eq_right_iff_imp, List.any_eq_true]
  rintro ⟨s, mem, same⟩
  have serial : e.symbol.serial = s.serial := by simpa [Symbol.same] using same
  rw [isPermanent, serial]
  exact permanent s mem

/-- A purge takes away as many entries as are dead. -/
theorem length_purge (st : SymbolStore) (held : List Symbol) (table : Nat) :
    st.entries.length = (st.purge held table).entries.length + st.deadCount held table := by
  rw [deadCount, purge, ← List.countP_eq_length_filter,
    List.length_eq_countP_add_countP fun e : SymbolEntry => e.table != table || st.alive held e]
  congr 2
  funext e
  cases here : e.table == table <;> simp [bne, here]

/-- Some texts as spots of the first table. -/
def spotsOf (texts : Finset String) : Finset Spot :=
  texts.image (Spot.mk 0)

theorem mem_spotsOf {texts : Finset String} {p : Spot} :
    p ∈ spotsOf texts ↔ p.table = 0 ∧ p.text ∈ texts := by
  obtain ⟨table, text⟩ := p
  simp [spotsOf, and_comm, eq_comm]

theorem card_spotsOf (texts : Finset String) : (spotsOf texts).card = texts.card :=
  Finset.card_image_of_injective _ fun _ _ same => congrArg Spot.text same

theorem filter_spotsOf (texts : Finset String) :
    (spotsOf texts).filter (·.table = 0) = spotsOf texts :=
  Finset.filter_true_of_mem fun _ mem => (mem_spotsOf.mp mem).1

/-- The texts with those of a method, as spots. -/
theorem spotsOf_union (texts : Finset String) (n : MethodName) :
    spotsOf (texts ∪ n.parts.toFinset) =
      insert (Parts.of 0 n).signature (insert (Parts.of 0 n).name
        (insert (Parts.of 0 n).owner (spotsOf texts))) := by
  have parts : texts ∪ n.parts.toFinset =
      insert n.signature (insert n.name (insert n.owner texts)) := by
    ext text
    simp [MethodName.parts]
    tauto
  rw [parts, spotsOf, Finset.image_insert, Finset.image_insert, Finset.image_insert]
  rfl

/-- The books of a store whose entries are all in the first table. -/
def BooksOf (st : SymbolStore) (known pinned : Finset String) : Prop :=
  st.Books (spotsOf known) (spotsOf pinned)

variable (books : st.BooksOf known pinned) (permanent : ∀ s ∈ held, st.isPermanent s = true)

include books

theorem subset_of_books : pinned ⊆ known := by
  intro text mem
  obtain ⟨s, hs, -⟩ := (Books.pinned books ⟨0, text⟩).mp (mem_spotsOf.mpr ⟨rfl, mem⟩)
  exact (mem_spotsOf.mp ((Books.known books ⟨0, text⟩).mpr ⟨s, hs⟩)).2

include permanent

theorem liveCount_of_books : st.liveCount held 0 = pinned.card := by
  have alone : st.liveCount held 0 = st.liveCount [] 0 := by
    rw [liveCount, liveCount]
    simp only [alive_of_all_permanent permanent]
  rw [alone, Books.liveCount_eq books .nil, liveSpots, List.toFinset_nil, Finset.empty_union,
    filter_spotsOf, card_spotsOf]

theorem deadCount_of_books : st.deadCount held 0 = known.card - pinned.card := by
  have alone : st.deadCount held 0 = st.deadCount [] 0 := by
    rw [deadCount, deadCount]
    simp only [alive_of_all_permanent permanent]
  have dead : spotsOf known \ spotsOf pinned = spotsOf (known \ pinned) := by
    ext p
    simp only [Finset.mem_sdiff, mem_spotsOf]
    tauto
  rw [alone, Books.deadCount_eq books .nil, deadSpots, liveSpots, List.toFinset_nil,
    Finset.empty_union, dead, filter_spotsOf, card_spotsOf,
    Finset.card_sdiff_of_subset (subset_of_books books)]

theorem alive_iff_of_books {e : SymbolEntry} (mem : e ∈ st.entries) :
    (st.alive held e = true ↔ e.text ∈ pinned) ∧
      (st.isPermanent e.symbol = true ↔ e.text ∈ pinned) := by
  have hs := holds_of_mem mem
  have here : e.spot.table = 0 :=
    (mem_spotsOf.mp ((Books.known books e.spot).mpr ⟨e.symbol, hs⟩)).1
  have pinned : st.isPermanent e.symbol = true ↔ e.text ∈ pinned := by
    rw [Books.isPermanent_iff books hs, mem_spotsOf]
    exact and_iff_right here
  refine ⟨?_, pinned⟩
  rw [alive_of_all_permanent permanent, alive, List.any_nil, Bool.false_or]
  exact pinned

end SymbolStore

/-! ### Texts -/

/-- The texts that occur as a part of a recorded method. -/
def StatTable.texts (t : StatTable) : Finset String :=
  (t.records.flatMap (·.method.texts.parts)).toFinset

theorem StatTable.texts_upsert {t : StatTable} {m : Method}
    (alike : ∀ r ∈ t.records, r.method.same m = true → r.method.texts = m.texts) (c : Commit) :
    (t.upsert m c).texts = t.texts ∪ m.texts.parts.toFinset := by
  obtain ⟨rs⟩ := t
  simp only [texts, upsert] at alike ⊢
  induction rs with
  | nil => simp [upsertIn, StatRecord.apply, StatRecord.fresh]
  | cons r rs ih =>
      rw [List.forall_mem_cons] at alike
      simp only [upsertIn]
      split
      · next same =>
          rw [List.flatMap_cons, List.flatMap_cons, StatRecord.apply, alike.1 same,
            List.toFinset_append, Finset.union_right_comm, Finset.union_self]
      · rw [List.flatMap_cons, List.flatMap_cons, List.toFinset_append, List.toFinset_append,
          ih alike.2, Finset.union_assoc]

/-- The texts that occur as a part of a recorded method. -/
def Service.texts (s : Service) : Finset String :=
  match s.table with
  | some t => t.texts
  | none => ∅

namespace Replay

/-- The texts that occur as a part of the method of some compilation. -/
def textsOf (cs : List TraceCompilation) : Finset String :=
  (cs.flatMap fun c => (nameOf c).parts).toFinset

theorem textsOf_append (cs cs' : List TraceCompilation) :
    textsOf (cs ++ cs') = textsOf cs ∪ textsOf cs' := by
  rw [textsOf, List.flatMap_append, List.toFinset_append]
  rfl

theorem textsOf_perm {cs cs' : List TraceCompilation} (same : cs.Perm cs') :
    textsOf cs = textsOf cs' :=
  List.toFinset_eq_of_perm _ _ (same.flatMap_right _)

variable {f : Flavour} {config : StatConfig} {site site' : Site} {ctx ctx' : Context}
variable {c : TraceCompilation} {time : Seconds} {known : Finset String}

/-- The symbols of a site are those of some texts, and the recorded ones are pinned. -/
structure Pins (known : Finset String) (site : Site) : Prop where
  switched : site.service.Switched
  sound : site.Sound
  books : site.symbols.BooksOf known site.service.texts

/-- A compilation adds the texts of its method, and pins them if it is recorded. -/
theorem pins_compiled (pins : Pins known site)
    (compiled : Compiled f config site ctx c time site' ctx') :
    Pins (known ∪ textsOf [c]) site' := by
  have new : textsOf [c] = (nameOf c).parts.toFinset := by simp [textsOf]
  have interned : (interned site ctx c).2.BooksOf (known ∪ textsOf [c]) site.service.texts := by
    rw [SymbolStore.BooksOf, new, SymbolStore.spotsOf_union]
    exact SymbolStore.Books.internMethod pins.books _ 0 (nameOf c)
  have switched := compiled.keeps.switched pins.switched
  cases compiled with
  | off off => exact ⟨switched, sound_left_untracked ctx c pins.sound, interned⟩
  | on table on =>
      refine ⟨switched, sound_left f config ctx c time pins.sound on, ?_⟩
      by_cases tracked : tracks config c = true
      · have texts : (Replay.interned site ctx c).1.texts = nameOf c :=
          SymbolStore.internMethod_texts _ _ _ _
        -- a handle stands for one text, so a commit does not change the texts of its record
        have alike : ∀ r ∈ table.records,
            r.method.same (Replay.interned site ctx c).1 = true →
              r.method.texts = (Replay.interned site ctx c).1.texts := by
          intro r mem same
          obtain ⟨p, placed⟩ := (recorded_interned ctx c pins.sound on.table).placed r mem
          have here := interned_at ctx c pins.sound
          rw [placed.1, placed.place_eq (sound_interned ctx c pins.sound) here same, texts]
          rfl
        have before : site.service.texts = table.texts := by rw [Service.texts, on.table]
        have after : (left f config site ctx c time table).service.texts =
            site.service.texts ∪ (nameOf c).parts.toFinset := by
          rw [Service.texts, (left_on f config site ctx c time on tracked).table, before, ← texts]
          exact StatTable.texts_upsert alike _
        rw [SymbolStore.BooksOf, after, left_symbols f config site ctx c time table tracked,
          SymbolStore.spotsOf_union]
        refine SymbolStore.Books.pinMethod interned ?_
        exact SymbolStore.holdsParts_internMethod pins.sound.symbols _ 0 (nameOf c)
      · rw [left_untracked f config site ctx c time table tracked]
        exact interned

namespace Job

def accepted (job : Job) : Bool :=
  job.trace.validate.isOk

/-- A job adds the texts of its compilations if it is accepted. -/
theorem pins_run (pins : Pins known site) (job : Job) :
    Pins (known ∪ if job.accepted then textsOf job.trace.compilations else ∅)
      (job.run f site).2 := by
  cases job.run_cases f site pins.switched with
  | inl refused =>
      obtain ⟨fault, invalid, run⟩ := refused
      have rejected : job.accepted = false := by rw [accepted, invalid]; rfl
      rw [rejected, run, if_neg Bool.false_ne_true, Finset.union_empty]
      exact pins
  | inr done =>
      obtain ⟨valid, p, run, kept⟩ := done
      have taken : job.accepted = true := by rw [accepted, valid]; rfl
      have played : Pins (known ∪ textsOf (job.turns.map (·.compilation))) p.site := by
        refine kept (fun cs p => Pins (known ∪ textsOf cs) p.site) ?_ ?_
        · intro cs p t p' before turned
          cases turned with
          | compiled ctx site' ctx' worker left =>
              rw [textsOf_append, ← Finset.union_assoc]
              exact pins_compiled before left
        · rw [textsOf, List.flatMap_nil, List.toFinset_nil, Finset.union_empty]
          exact ⟨pins.switched, ⟨pins.sound.symbols, pins.sound.recorded⟩, pins.books⟩
      rw [taken, run, if_pos rfl, ← textsOf_perm job.schedule.complete]
      exact played

end Job

end Replay

namespace Session

open Replay (Job Pins textsOf)

variable {f : Flavour} {s : Session} {known : Finset String}

/-- Nothing is held but by records, and every symbol is from one of the known texts. -/
structure Resting (known : Finset String) (s : Session) : Prop where
  workers : s.workers = []
  handles : s.handles = []
  pins : Pins known s.site

theorem resting_new (inline : InlineOutput) : Resting ∅ (new inline) where
  workers := rfl
  handles := rfl
  pins := ⟨Service.switched_new inline, ⟨SymbolStore.sound_empty, fun _ on => by cases on⟩,
    SymbolStore.books_empty⟩

theorem Resting.enable (resting : Resting known s) : Resting known (s.step f .enable).2 := by
  cases resting.pins.switched.cases with
  | inr on =>
      obtain ⟨table, (on : s.service.On table)⟩ := on
      rw [step_enable_on on.enabled]
      exact resting
  | inl off =>
      have none : s.service.texts = ∅ := by
        rw [Service.texts, show s.service.table = _ from off.table]
      have books := resting.pins.books
      change s.symbols.BooksOf known s.service.texts at books
      rw [none] at books
      rw [step_enable_off off]
      refine ⟨resting.workers, resting.handles, rfl, ⟨resting.pins.sound.symbols, ?_⟩, books⟩
      intro t new
      cases new
      exact .empty _

theorem Resting.replay (resting : Resting known s) (job : Job) :
    Resting (known ∪ if job.accepted then textsOf job.trace.compilations else ∅)
      (s.operate f (.replay job)).2 := by
  refine ⟨resting.workers, resting.handles, ?_⟩
  rw [site_replay f resting.pins.switched]
  exact job.pins_run resting.pins

/-! ### Runs of replays -/

/-- A replay, before which the service is switched on if that is wanted. -/
structure Request where
  enable : Bool
  job : Job

def Request.operations (r : Request) : List Operation :=
  (if r.enable then [.step .enable] else []) ++ [.replay r.job]

/-- The texts that occur as a part of the method of a compilation in an accepted replay. -/
def acceptedTexts (rs : List Request) : Finset String :=
  textsOf ((rs.filter (·.job.accepted)).flatMap (·.job.trace.compilations))

theorem acceptedTexts_cons (r : Request) (rs : List Request) :
    acceptedTexts (r :: rs) =
      (if r.job.accepted then textsOf r.job.trace.compilations else ∅) ∪ acceptedTexts rs := by
  rw [acceptedTexts, List.filter_cons]
  cases r.job.accepted with
  | true =>
      rw [if_pos rfl, if_pos rfl, List.flatMap_cons, Replay.textsOf_append]
      rfl
  | false =>
      rw [if_neg Bool.false_ne_true, if_neg Bool.false_ne_true, Finset.empty_union]
      rfl

theorem Resting.request (resting : Resting known s) (r : Request) :
    Resting (known ∪ if r.job.accepted then textsOf r.job.trace.compilations else ∅)
      (s.reached f r.operations) := by
  obtain ⟨enable, job⟩ := r
  cases enable with
  | true => exact resting.enable.replay job
  | false => exact resting.replay job

theorem Resting.requests (resting : Resting known s) (rs : List Request) :
    Resting (known ∪ acceptedTexts rs) (s.reached f (rs.flatMap (·.operations))) := by
  induction rs generalizing s known with
  | nil =>
      have none : acceptedTexts [] = ∅ := rfl
      rw [none, Finset.union_empty]
      exact resting
  | cons r rs ih =>
      rw [acceptedTexts_cons, ← Finset.union_assoc, List.flatMap_cons, reached_append]
      exact ih (resting.request r)

/-- What is alive in the symbol table of a session, where the known texts were interned. -/
structure PinsRecorded (f : Flavour) (known : Finset String) (s : Session) : Prop where
  live : (s.step f (.liveCount 0)).1 = .ok (.count s.service.texts.card)
  permanent : ∀ t, s.service.table = some t → ∀ r ∈ t.records,
    s.symbols.isPermanentMethod r.method = true
  /-- An entry is alive when its text is a recorded one, and then it is permanent. -/
  alive : ∀ e ∈ s.symbols.entries,
    (s.symbols.alive s.held e = true ↔ e.text ∈ s.service.texts) ∧
    (s.symbols.isPermanent e.symbol = true ↔ e.text ∈ s.service.texts)
  recorded : s.service.texts ⊆ known
  purge : (s.step f (.purge 0)).1 = .ok (.count (known.card - s.service.texts.card)) ∧
    s.symbols.entries.length =
      (s.step f (.purge 0)).2.symbols.entries.length + (known.card - s.service.texts.card)
  /-- A replay fails only when it is not accepted, and then it interns nothing. -/
  accepted : ∀ job, ((∃ o, (s.operate f (.replay job)).1 = .outcome (.ok o)) ↔
    job.accepted = true) ∧ (job.accepted = false → (s.operate f (.replay job)).2 = s)

theorem Resting.pinsRecorded (resting : Resting known s) : s.PinsRecorded f known := by
  have books : s.symbols.BooksOf known s.service.texts := resting.pins.books
  have recorded : ∀ t, s.service.table = some t → Recorded s.symbols t :=
    resting.pins.sound.recorded
  have held : s.held = s.service.held := by
    simp [Session.held, outside, resting.workers, resting.handles]
  have permanent : ∀ symbol ∈ s.held, s.symbols.isPermanent symbol = true := by
    intro symbol mem
    rw [held, Service.held] at mem
    cases on : s.service.table with
    | none =>
        rw [on] at mem
        cases mem
    | some t =>
        rw [on] at mem
        obtain ⟨r, mem, part⟩ := List.mem_flatMap.mp mem
        exact (recorded t on).permanent r mem symbol part
  have dead := SymbolStore.deadCount_of_books books permanent
  refine ⟨?_, ?_, ?_, SymbolStore.subset_of_books books, ⟨?_, ?_⟩, ?_⟩
  · simp only [step, SymbolStore.liveCount_of_books books permanent]
  · intro t on r mem
    exact List.all_eq_true.mpr ((recorded t on).permanent r mem)
  · intro e mem
    exact SymbolStore.alive_iff_of_books books permanent mem
  · simp only [step, dead]
  · rw [← dead]
    exact SymbolStore.length_purge s.symbols s.held 0
  · intro job
    cases job.run_cases f s.site resting.pins.switched with
    | inl refused =>
        obtain ⟨fault, invalid, run⟩ := refused
        have rejected : job.accepted = false := by rw [Job.accepted, invalid]; rfl
        have failed : s.operate f (.replay job) = (.outcome (.error (.invalid fault)), s) := by
          rw [operate, run]
          rfl
        simp [failed, rejected]
    | inr done =>
        obtain ⟨valid, p, run, -⟩ := done
        have taken : job.accepted = true := by rw [Job.accepted, valid]; rfl
        have ended : (s.operate f (.replay job)).1 =
            .outcome (.ok ⟨job.trace.compilations.length, p.tracked⟩) := by
          rw [operate, run]
        simp [ended, taken]

/-- After any replays on one service, the live symbols are those of the recorded methods, and a
purge removes all others that the accepted replays have interned. -/
theorem pinsRecorded_requests (f : Flavour) (inline : InlineOutput) (rs : List Request) :
    ((new inline).reached f (rs.flatMap (·.operations))).PinsRecorded f (acceptedTexts rs) := by
  have resting := (resting_new inline).requests (f := f) rs
  rw [Finset.empty_union] at resting
  exact resting.pinsRecorded

/-- Two methods that share their name and signature, one of them recorded. -/
example :
    let request : Request := ⟨true, .inOrder .default ⟨none,
      [⟨"A", "run", "()V", .c2, some .collecting, []⟩, ⟨"B", "run", "()V", .c1, none, []⟩]⟩ 1
      fun _ => .zero⟩
    let s := (new ⟨true, []⟩).reached .debug request.operations
    (s.step .debug (.liveCount 0)).1 = .ok (.count 3) ∧
      (s.step .debug (.purge 0)).1 = .ok (.count 1) := by
  decide

end Session

end ArenaPeak
