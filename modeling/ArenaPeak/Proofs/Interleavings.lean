import ArenaPeak.Proofs.Lanes
import Mathlib.Data.List.Count

/-!
Interleavings of the steps of several threads. Two runs in which each thread takes the same steps
show the same of every thread, so together they make the same commits and print the same lines, each
in some order. The order decides which commit to a record is the last one, and nothing else; where
no two threads commit to the same place it does not even decide that.
-/

namespace ArenaPeak

open Session (Answer Failure)

/-- Lists that agree wherever a key is looked at are permutations of each other. -/
theorem perm_of_filter_eq {α β : Type} [BEq β] [LawfulBEq β] (key : α → β) {l l' : List α}
    (same : ∀ b, l.filter (key · == b) = l'.filter (key · == b)) : l.Perm l' := by
  classical
  refine List.perm_iff_count.mpr ?_
  intro a
  have counted (l : List α) : (l.filter (key · == key a)).count a = l.count a :=
    List.count_filter (by simp)
  rw [← counted l, ← counted l', same]

namespace InlineOutput

theorem foldl_print (o : InlineOutput) (lines : List String) :
    lines.foldl print o = if o.writable then { o with lines := o.lines ++ lines } else o := by
  induction lines generalizing o with
  | nil => cases o; simp
  | cons line lines ih =>
      rw [List.foldl_cons, ih, print]
      cases writable : o.writable <;> simp [writable]

theorem foldl_print_perm (o : InlineOutput) {lines lines' : List String}
    (perm : lines.Perm lines') : (lines.foldl print o).lines.Perm (lines'.foldl print o).lines := by
  rw [foldl_print, foldl_print]
  split
  · exact perm.append_left o.lines
  · exact .refl _

end InlineOutput

namespace Session

/-- The record that looking a place up finds. -/
def recordOf (s : Session) (p : Place) : Option StatRecord :=
  s.service.get? (s.symbols.internMethod s.held p.table p.name).1

/-- A thread has a task, with a method from a place. -/
def WorksAt (s : Session) (i : Nat) (p : Place) : Prop :=
  ∃ m, s.methodOf i = some m ∧ m.At s.symbols p

/-- The answers to the steps of one thread in a run, without serial numbers. -/
def answersOf (f : Flavour) (s : Session) (steps : List Step) (i : Nat) :
    List (Except Failure Answer) :=
  ((steps.zip (run f s steps).1).filter (·.1.thread == some i)).map fun p => p.2.map (·.plain)

end Session

namespace Ledger

variable {f : Flavour} {L : Ledger} {as bs steps : List Session.Step} {p : Place}

/-- Each thread takes the same steps in both lists, and takes them all. -/
structure Interleaves (as bs : List Session.Step) : Prop where
  owned : ∀ st ∈ as ++ bs, st.thread.isSome = true
  same : ∀ i, as.filter (·.thread == some i) = bs.filter (·.thread == some i)

/-- No place is committed to by two threads of a run. -/
def Apart (f : Flavour) (L : Ledger) (steps : List Session.Step) : Prop :=
  ∀ x ∈ L.reports f steps, ∀ y ∈ L.reports f steps, x.2.commit.isSome = true →
    x.2.commit.map (·.1) = y.2.commit.map (·.1) → x.1 = y.1

instance (f : Flavour) (L : Ledger) (steps : List Session.Step) : Decidable (L.Apart f steps) :=
  inferInstanceAs (Decidable (∀ x ∈ L.reports f steps, ∀ y ∈ L.reports f steps, _ → _ → _))

/-! ### What a run leaves, from what it shows -/

theorem commits_foldl (f : Flavour) (L : Ledger) (steps : List Session.Step) :
    (steps.foldl (step f) L).commits =
      ((L.reports f steps).filterMap (·.2.commit)).reverse ++ L.commits := by
  induction steps generalizing L with
  | nil => rfl
  | cons st steps ih =>
      rw [List.foldl_cons, ih, reports, List.filterMap_cons]
      simp only [report, step, commitsAfter]
      cases L.session.commit? f st with
      | none => rfl
      | some made => simp

theorem inline_foldl (switched : L.session.service.Switched)
    (owned : ∀ st ∈ steps, st.thread.isSome = true) :
    (steps.foldl (step f) L).session.service.inline =
      ((L.reports f steps).filterMap (·.2.line)).foldl InlineOutput.print
        L.session.service.inline := by
  induction steps generalizing L with
  | nil => rfl
  | cons st steps ih =>
      rw [List.forall_mem_cons] at owned
      obtain ⟨i, own⟩ := Option.isSome_iff_exists.mp owned.1
      have first : (L.step f st).session.service.inline =
          L.session.service.inline.printed (L.report f st).line := by
        cases there : L.session.workers[i]? with
        | none =>
            obtain ⟨shown, stays, -⟩ := step_absent (f := f) there own
            rw [shown, stays]
            rfl
        | some w => exact Session.inline_step switched there own
      rw [List.foldl_cons, ih (Session.switched_step switched st) owned.2, reports,
        List.filterMap_cons, first]
      cases (L.report f st).line <;> rfl

theorem answersOf_eq (f : Flavour) (L : Ledger) (steps : List Session.Step) (i : Nat) :
    Session.answersOf f L.session steps i =
      ((L.reports f steps).filter (·.1 == some i)).map (·.2.answer) := by
  induction steps generalizing L with
  | nil => rfl
  | cons st steps ih =>
      have rest := ih (L.step f st)
      simp only [Session.answersOf, Session.run, List.zip_cons_cons, reports] at rest ⊢
      simp only [List.filter_cons]
      split
      · exact congrArg (_ :: ·) rest
      · exact rest

/-! ### Two interleavings -/

/-- Both runs show the same of each thread, and leave it the same. -/
theorem solo_interleaves (switched : L.session.service.Switched) (h : Interleaves as bs) (i : Nat) :
    ((L.reports f as).filter (·.1 == some i)).map (·.2) =
        ((L.reports f bs).filter (·.1 == some i)).map (·.2) ∧
      (as.foldl (step f) L).lane i = (bs.foldl (step f) L).lane i := by
  have alone := solo_eq (f := f) switched rfl (List.forall_mem_append.mp h.owned).1 i
  have alone' := solo_eq (f := f) switched rfl (List.forall_mem_append.mp h.owned).2 i
  rw [h.same, alone'] at alone
  exact ⟨(congrArg (·.1) alone).symm, (congrArg (·.2) alone).symm⟩

theorem thread_of_mem_reports {x : Option Nat × Report}
    (owned : ∀ st ∈ steps, st.thread.isSome = true) (mem : x ∈ L.reports f steps) :
    x.1.isSome = true := by
  induction steps generalizing L with
  | nil => cases mem
  | cons st steps ih =>
      rw [List.forall_mem_cons] at owned
      cases List.mem_cons.mp mem with
      | inl eq =>
          rw [eq]
          exact owned.1
      | inr later => exact ih owned.2 later

theorem filter_reports (switched : L.session.service.Switched) (h : Interleaves as bs)
    (k : Option Nat) :
    (L.reports f as).filter (·.1 == k) = (L.reports f bs).filter (·.1 == k) := by
  have tagged (l : List (Option Nat × Report)) :
      l.filter (·.1 == k) = ((l.filter (·.1 == k)).map (·.2)).map fun r => (k, r) := by
    rw [List.map_map]
    refine (List.map_id _).symm.trans (List.map_congr_left ?_)
    intro x mem
    exact Prod.ext (by simpa using (List.mem_filter.mp mem).2) rfl
  cases k with
  | some i => rw [tagged, (solo_interleaves switched h i).1, ← tagged]
  | none =>
      have never {steps : List Session.Step} (owned : ∀ st ∈ steps, st.thread.isSome = true) :
          (L.reports f steps).filter (·.1 == none) = [] := by
        refine List.filter_eq_nil_iff.mpr ?_
        intro x mem
        have := thread_of_mem_reports owned mem
        cases own : x.1 <;> simp_all
      rw [never (List.forall_mem_append.mp h.owned).1, never (List.forall_mem_append.mp h.owned).2]

theorem reports_perm (switched : L.session.service.Switched) (h : Interleaves as bs) :
    (L.reports f as).Perm (L.reports f bs) :=
  perm_of_filter_eq (·.1) (filter_reports switched h)

theorem commits_perm (switched : L.session.service.Switched) (h : Interleaves as bs) :
    (as.foldl (step f) L).commits.Perm (bs.foldl (step f) L).commits := by
  rw [commits_foldl, commits_foldl]
  refine List.Perm.append_right _ ?_
  exact ((List.reverse_perm _).trans ((reports_perm switched h).filterMap _)).trans
    (List.reverse_perm _).symm

/-- The commits to a place are all seen at the one thread that makes them. -/
theorem commitsTo_filter {k : Option Nat} {rs : List (Option Nat × Report)}
    (only : ∀ x ∈ rs, x.2.commit.map (·.1) = some (some p) → x.1 = k) :
    commitsTo p (rs.filterMap (·.2.commit)) =
      commitsTo p ((rs.filter (·.1 == k)).filterMap (·.2.commit)) := by
  simp only [commitsTo, List.filter_filterMap, List.map_filterMap, List.filterMap_filter]
  refine List.filterMap_congr ?_
  intro x mem
  by_cases mine : (x.1 == k) = true
  · rw [if_pos mine]
  · rw [if_neg mine]
    refine congrArg (Option.map _) (Option.filter_eq_none_iff.mpr ?_)
    intro c made here
    have made' : x.2.commit.map (·.1) = some (some p) := by
      rw [made]
      exact congrArg some (by simpa using here)
    exact mine (by simpa using only x mem made')

/-- If no place is committed to by two threads, both runs make the commits to a place in the same
order. -/
theorem commitsTo_interleaves (switched : L.session.service.Switched) (h : Interleaves as bs)
    (apart : L.Apart f as) (p : Place) :
    commitsTo p (as.foldl (step f) L).commits = commitsTo p (bs.foldl (step f) L).commits := by
  have append (cs cs' : List (Option Place × Commit)) :
      commitsTo p (cs.reverse ++ cs') = (commitsTo p cs).reverse ++ commitsTo p cs' := by
    simp [commitsTo]
  rw [commits_foldl, commits_foldl, append, append]
  congr 2
  have perm : (L.reports f as).Perm (L.reports f bs) := reports_perm switched h
  have seen (k : Option Nat)
      (only : ∀ x ∈ L.reports f as, x.2.commit.map (·.1) = some (some p) → x.1 = k) :
      commitsTo p ((L.reports f as).filterMap (·.2.commit)) =
        commitsTo p ((L.reports f bs).filterMap (·.2.commit)) := by
    rw [commitsTo_filter only, filter_reports switched h,
      ← commitsTo_filter fun x mem => only x (perm.mem_iff.mpr mem)]
  by_cases somewhere : ∃ x ∈ L.reports f as, x.2.commit.map (·.1) = some (some p)
  · obtain ⟨x, mem, made⟩ := somewhere
    have committed : x.2.commit.isSome = true := by
      rw [← Option.isSome_map, made]
      rfl
    exact seen x.1 fun y mem' made' => (apart x mem y mem' committed (made.trans made'.symm)).symm
  · exact seen none fun x mem made => absurd ⟨x, mem, made⟩ somewhere

/-- A thread's lane knows whether it works at a place. -/
theorem Sound.worksAt_iff (h : L.Sound) (i : Nat) (p : Place) :
    L.session.WorksAt i p ↔
      ∃ l, L.lane i = some l ∧ l.worker.context.task.isSome = true ∧ l.origin = some p := by
  constructor
  · rintro ⟨m, works, placed⟩
    obtain ⟨q, origin, placed'⟩ := h.placed i m works
    obtain ⟨w, there, task⟩ := Option.bind_eq_some_iff.mp works
    have working : w.context.task.isSome = true := by
      rw [← Option.isSome_map, task]
      rfl
    refine ⟨⟨w.plain, L.origins i⟩, by rw [lane, there]; rfl, ?_, ?_⟩
    · exact (Option.isSome_map).trans working
    · rw [placed.place_eq h.symbols placed' (Method.same_self m)]
      exact origin
  · rintro ⟨l, now, working, origin⟩
    obtain ⟨w, there, rfl⟩ := Option.map_eq_some_iff.mp now
    obtain ⟨t, task⟩ := Option.isSome_iff_exists.mp ((Option.isSome_map).symm.trans working)
    have works : L.session.methodOf i = some t.method := by
      rw [Session.methodOf_of_worker there, task]
      rfl
    obtain ⟨q, origin', placed⟩ := h.placed i t.method works
    cases origin.symm.trans origin'
    exact ⟨t.method, works, placed⟩

/-- Records that tell of the same commits to a place are the same, apart from serial numbers. -/
theorem plain_of_tells {r? r'? : Option StatRecord} {cs : List Commit} (h : Tells r? cs)
    (h' : Tells r'? cs) (named : ∀ r, r? = some r → r.method.texts = p.name)
    (named' : ∀ r, r'? = some r → r.method.texts = p.name) :
    r?.map (·.plain) = r'?.map (·.plain) := by
  cases cs with
  | nil =>
      obtain rfl : r? = none := h
      obtain rfl : r'? = none := h'
      rfl
  | cons c cs =>
      obtain ⟨r, rfl, told⟩ := h
      obtain ⟨r', rfl, told'⟩ := h'
      have texts : r.method.texts = r'.method.texts := (named r rfl).trans (named' r' rfl).symm
      cases r
      cases r'
      simp_all [StatRecord.plain, Method.plain]

theorem count_of_tells {r? r'? : Option StatRecord} {cs cs' : List Commit} (h : Tells r? cs)
    (h' : Tells r'? cs') (length : cs.length = cs'.length) :
    r?.map (·.recompilations) = r'?.map (·.recompilations) := by
  cases cs with
  | nil =>
      obtain rfl : cs' = [] := List.eq_nil_of_length_eq_zero length.symm
      obtain rfl : r? = none := h
      obtain rfl : r'? = none := h'
      rfl
  | cons c cs =>
      cases cs' with
      | nil => cases length
      | cons c' cs' =>
          obtain ⟨r, rfl, count, -⟩ := h
          obtain ⟨r', rfl, count', -⟩ := h'
          simp only [Option.map_some, count, count', Nat.succ.inj length]

theorem Sound.recordOf_eq (h : L.Sound) (p : Place) :
    L.session.recordOf p = L.session.service.table.bind (·.recordAt L.session.symbols p) :=
  h.get?_eq_recordAt p

theorem Sound.texts_of_recordOf (h : L.Sound) {r : StatRecord}
    (found : L.session.recordOf p = some r) : r.method.texts = p.name := by
  rw [h.recordOf_eq] at found
  obtain ⟨t, -, found⟩ := Option.bind_eq_some_iff.mp found
  exact (StatTable.recordAt_eq_some found).2.1

/-- What two runs from one session have in common. -/
structure Agree (f : Flavour) (L : Ledger) (as bs : List Session.Step) (s s' : Session) : Prop where
  answers : ∀ i, Session.answersOf f L.session as i = Session.answersOf f L.session bs i
  workers : s.workers.map (·.plain) = s'.workers.map (·.plain)
  places : ∀ i p, s.WorksAt i p ↔ s'.WorksAt i p
  size : s.service.size = s'.service.size
  counts : ∀ p, (s.recordOf p).map (·.recompilations) = (s'.recordOf p).map (·.recompilations)
  lines : s.service.inline.lines.Perm s'.service.inline.lines
  records : L.Apart f as → ∀ p, (s.recordOf p).map (·.plain) = (s'.recordOf p).map (·.plain)

theorem Sound.agree (h : L.Sound) (both : Interleaves as bs) :
    L.Agree f as bs (as.foldl (step f) L).session (bs.foldl (step f) L).session := by
  have sound : (as.foldl (step f) L).Sound := sound_foldl h as
  have sound' : (bs.foldl (step f) L).Sound := sound_foldl h bs
  have commits : (as.foldl (step f) L).commits.Perm (bs.foldl (step f) L).commits :=
    commits_perm h.switched both
  have lane (i : Nat) : (as.foldl (step f) L).lane i = (bs.foldl (step f) L).lane i :=
    (solo_interleaves h.switched both i).2
  refine ⟨?_, ?_, ?_, ?_, ?_, ?_, ?_⟩
  · intro i
    rw [answersOf_eq, answersOf_eq, filter_reports h.switched both]
  · refine List.ext_getElem? fun i => ?_
    have shown := congrArg (Option.map (·.worker)) (lane i)
    simpa only [Ledger.lane, Option.map_map, List.getElem?_map, Function.comp_def] using shown
  · intro i p
    rw [sound.worksAt_iff, sound'.worksAt_iff, lane i]
  · rw [sound.size, sound'.size]
    exact (commits.map _).dedup.length_eq
  · intro p
    rw [sound.recordOf_eq, sound'.recordOf_eq]
    refine count_of_tells (sound.tells p) (sound'.tells p) ?_
    exact ((commits.filter _).map _).length_eq
  · rw [inline_foldl h.switched (List.forall_mem_append.mp both.owned).1,
      inline_foldl h.switched (List.forall_mem_append.mp both.owned).2]
    exact InlineOutput.foldl_print_perm _ ((reports_perm h.switched both).filterMap _)
  · intro apart p
    have told := sound.tells p
    have told' := sound'.tells p
    rw [← sound.recordOf_eq] at told
    rw [← sound'.recordOf_eq, ← commitsTo_interleaves h.switched both apart] at told'
    exact plain_of_tells told told' (fun r => sound.texts_of_recordOf)
      fun r => sound'.texts_of_recordOf

/-- From whatever session, two interleavings of the steps of some threads give every step the same
answer, leave every thread the same, print the same lines and commit equally often to every place;
if no place is committed to by two of the threads, they leave the same records. -/
theorem interleavings_agree (f : Flavour) (inline : InlineOutput)
    (before as bs : List Session.Step) (both : Interleaves as bs) :
    (after f inline before).Agree f as bs
      (Session.run f (Session.run f (.new inline) before).2 as).2
      (Session.run f (Session.run f (.new inline) before).2 bs).2 := by
  have agree := (sound_after f inline before).agree (f := f) both
  have session : (after f inline before).session = (Session.run f (.new inline) before).2 :=
    session_foldl f (start inline) before
  rw [session_foldl, session_foldl, session] at agree
  exact agree

/-- Two threads, each with a task of its own. -/
def staffed : List Session.Step :=
  [.enable, .newContext, .newContext,
    .setTask 0 0 ⟨"A", "run", "()V"⟩ .c2 .printing (some 0),
    .setTask 1 0 ⟨"B", "run", "()V"⟩ .c1 .collecting none]

def takingTurns : List Session.Step :=
  [.enter 0, .enter 1, .setLive 0 7, .arena 1 32 .resource, .arena 0 64 .node,
    .arena 1 (-40) .resource, .crash 0 ⟨false, 3, -1⟩, .close 1 ⟨false, 5, -1⟩]

def oneByOne : List Session.Step :=
  [.enter 1, .arena 1 32 .resource, .arena 1 (-40) .resource, .close 1 ⟨false, 5, -1⟩,
    .enter 0, .setLive 0 7, .arena 0 64 .node, .crash 0 ⟨false, 3, -1⟩]

theorem interleavings_agree_two_threads :
    (after .debug ⟨true, []⟩ staffed).Apart .debug takingTurns ∧
      (after .debug ⟨true, []⟩ staffed).Agree .debug takingTurns oneByOne
        (Session.run .debug (Session.run .debug (.new ⟨true, []⟩) staffed).2 takingTurns).2
        (Session.run .debug (Session.run .debug (.new ⟨true, []⟩) staffed).2 oneByOne).2 := by
  have both : Interleaves takingTurns oneByOne := by
    refine ⟨by decide, fun i => ?_⟩
    match i with
    | 0 => rfl
    | 1 => rfl
    | i + 2 => rfl
  exact ⟨by decide, interleavings_agree .debug ⟨true, []⟩ staffed takingTurns oneByOne both⟩

end Ledger

end ArenaPeak
