import ArenaPeak.Proofs.Places
import ArenaPeak.Table
import Mathlib.Data.List.Find

/-!
Records under the places of their methods. The symbols of recorded methods are pinned, so the method
interned from a place, now or at any later time, finds the record of the place if there is one and
no other; a commit changes the record of one place and leaves all others alone.
-/

namespace ArenaPeak

/-- Every recorded method stands for some place and is pinned. -/
structure Recorded (st : SymbolStore) (t : StatTable) : Prop where
  placed : ∀ r ∈ t.records, ∃ p, r.method.At st p
  permanent : ∀ r ∈ t.records, ∀ s ∈ r.method.symbols, st.isPermanent s = true

/-- Pinned symbols stay pinned and on their entries, and no old serial gets a new entry. -/
structure SymbolStore.Keeps (st st' : SymbolStore) : Prop where
  permanent : ∀ s, st.isPermanent s = true → st'.isPermanent s = true
  interned : ∀ t s, st.Interned t s → st.isPermanent s = true → st'.Interned t s
  old : ∀ t s, s.serial < st.next → st'.Interned t s → st.Interned t s

namespace SymbolStore

variable {st : SymbolStore}

theorem keeps_refl (st : SymbolStore) : st.Keeps st :=
  ⟨fun _ h => h, fun _ _ h _ => h, fun _ _ _ h => h⟩

theorem keeps_internMethod (h : st.Sound) (held : List Symbol) (table : Nat) (n : MethodName) :
    st.Keeps (st.internMethod held table n).2 where
  permanent s hs := by simpa [isPermanent] using hs
  interned _ _ hs permanent := hs.internMethod h (alive_of_permanent permanent) table n
  old _ _ old hs := interned_of_internMethod old hs

theorem keeps_purge (st : SymbolStore) (held : List Symbol) (table : Nat) :
    st.Keeps (st.purge held table) where
  permanent _ hs := hs
  interned _ _ hs permanent := hs.purge (alive_of_permanent permanent) table
  old _ _ _ hs := interned_of_purge hs

theorem keeps_pinMethod (st : SymbolStore) (m : Method) : st.Keeps (st.pinMethod m) where
  permanent _ hs := isPermanent_pinMethod_mono hs
  interned _ _ hs _ := by simpa [Interned] using hs
  old _ _ _ hs := by simpa [Interned] using hs

end SymbolStore

namespace Recorded

variable {st st' : SymbolStore} {t : StatTable}

theorem empty (st : SymbolStore) : Recorded st .empty :=
  ⟨by simp [StatTable.empty], by simp [StatTable.empty]⟩

/-- What stands for a place is kept with the recorded methods. -/
theorem at_iff (h : st.Sound) (hr : Recorded st t) (keeps : st.Keeps st') {r : StatRecord}
    (mem : r ∈ t.records) (p : Place) : r.method.At st' p ↔ r.method.At st p := by
  obtain ⟨p', placed⟩ := hr.placed r mem
  constructor
  · rintro ⟨texts, interned⟩
    exact ⟨texts, fun s hs => keeps.old _ s ((placed.2 s hs).issued h) (interned s hs)⟩
  · rintro ⟨texts, interned⟩
    exact ⟨texts, fun s hs => keeps.interned _ s (interned s hs) (hr.permanent r mem s hs)⟩

theorem mono (h : st.Sound) (hr : Recorded st t) (keeps : st.Keeps st') : Recorded st' t where
  placed r mem := by
    obtain ⟨p, placed⟩ := hr.placed r mem
    exact ⟨p, (hr.at_iff h keeps mem p).mpr placed⟩
  permanent r mem s hs := keeps.permanent s (hr.permanent r mem s hs)

end Recorded

namespace StatTable

/-- The record of the method that stands for a place. -/
def recordAt (t : StatTable) (st : SymbolStore) (p : Place) : Option StatRecord :=
  t.records.find? fun r => decide (r.method.At st p)

variable {st st' : SymbolStore} {t : StatTable} {m : Method} {p : Place} {r : StatRecord}

theorem recordAt_eq_some (h : t.recordAt st p = some r) : r ∈ t.records ∧ r.method.At st p :=
  ⟨List.mem_of_find?_eq_some h, by simpa using List.find?_some h⟩

theorem recordAt_congr (h : st.Sound) (hr : Recorded st t) (keeps : st.Keeps st') (p : Place) :
    t.recordAt st' p = t.recordAt st p :=
  List.find?_congr fun r mem => by simp [hr.at_iff h keeps mem p]

theorem get?_eq_recordAt (h : st.Sound) (hr : Recorded st t) (hm : m.At st p) :
    t.get? m = t.recordAt st p := by
  refine List.find?_congr ?_
  intro r mem
  obtain ⟨p', placed⟩ := hr.placed r mem
  by_cases at_p : r.method.At st p
  · simp [at_p.unique h hm, hm]
  · have : r.method.same m = false := by
      by_contra same
      rw [placed.place_eq h hm (by simpa using same)] at placed
      exact at_p placed
    simp [at_p, this]

/-- Whichever handles are held, the method interned from a place finds the record of the place. -/
theorem get?_internMethod (h : st.Sound) (hr : Recorded st t) (held : List Symbol) (p : Place) :
    t.get? (st.internMethod held p.table p.name).1 = t.recordAt st p := by
  have keeps := SymbolStore.keeps_internMethod h held p.table p.name
  have sound := SymbolStore.sound_internMethod h held p.table p.name
  rw [get?_eq_recordAt sound (hr.mono h keeps) (SymbolStore.internMethod_at h held p)]
  exact recordAt_congr h hr keeps p

/-- The method interned from a place that has a record is the recorded one. -/
theorem internMethod_of_recordAt (h : st.Sound) (hr : Recorded st t)
    (found : t.recordAt st p = some r) (held : List Symbol) :
    st.internMethod held p.table p.name = (r.method, st) := by
  obtain ⟨mem, placed⟩ := recordAt_eq_some found
  exact SymbolStore.internMethod_eq h placed
    fun s hs => SymbolStore.alive_of_permanent (hr.permanent r mem s hs)

/-! ### Commits -/

theorem method_of_mem_upsertIn {c : Commit} {rs : List StatRecord} (h : r ∈ upsertIn m c rs) :
    r.method = m ∨ ∃ r' ∈ rs, r.method = r'.method := by
  induction rs with
  | nil =>
      obtain rfl : r = (StatRecord.fresh m).apply c := by simpa [upsertIn] using h
      exact .inl rfl
  | cons r' rs ih =>
      simp only [upsertIn] at h
      split at h
      · cases List.mem_cons.mp h with
        | inl eq =>
            subst eq
            exact .inr ⟨r', List.mem_cons_self, rfl⟩
        | inr h =>
            exact .inr ⟨r, List.mem_cons_of_mem _ h, rfl⟩
      · cases List.mem_cons.mp h with
        | inl eq =>
            subst eq
            exact .inr ⟨r, List.mem_cons_self, rfl⟩
        | inr h =>
            cases ih h with
            | inl eq =>
                exact .inl eq
            | inr old =>
                obtain ⟨r'', mem, eq⟩ := old
                exact .inr ⟨r'', List.mem_cons_of_mem _ mem, eq⟩

/-- A commit to another method changes nothing for a property of methods. -/
theorem find?_upsertIn_away (holds : Method → Bool) (c : Commit) (rs : List StatRecord)
    (away : holds m = false) (alike : ∀ r ∈ rs, r.method.same m = true → holds r.method = false) :
    (upsertIn m c rs).find? (fun r => holds r.method) = rs.find? fun r => holds r.method := by
  induction rs with
  | nil => simp [upsertIn, StatRecord.apply, StatRecord.fresh, away]
  | cons r rs ih =>
      rw [List.forall_mem_cons] at alike
      by_cases same : r.method.same m = true
      · simp [upsertIn, StatRecord.apply, same, alike.1 same]
      · simp only [upsertIn, same, Bool.false_eq_true, if_false, List.find?_cons, ih alike.2]

theorem size_upsert (t : StatTable) (m : Method) (c : Commit) :
    (t.upsert m c).size = if (t.get? m).isSome then t.size else t.size + 1 := by
  obtain ⟨rs⟩ := t
  simp only [upsert, size, get?]
  induction rs with
  | nil => simp [upsertIn]
  | cons r rs ih =>
      by_cases same : r.method.same m = true
      · simp [upsertIn, same]
      · simp only [upsertIn, same, Bool.false_eq_true, if_false, List.length_cons,
          List.find?_cons, ih]
        split <;> simp_all

theorem recorded_upsert (hr : Recorded st t) (hm : m.At st p)
    (pinned : ∀ s ∈ m.symbols, st.isPermanent s = true) (c : Commit) :
    Recorded st (t.upsert m c) where
  placed r mem := by
    cases method_of_mem_upsertIn mem with
    | inl eq =>
        rw [eq]
        exact ⟨p, hm⟩
    | inr old =>
        obtain ⟨r', mem', eq⟩ := old
        rw [eq]
        exact hr.placed r' mem'
  permanent r mem := by
    cases method_of_mem_upsertIn mem with
    | inl eq =>
        rw [eq]
        exact pinned
    | inr old =>
        obtain ⟨r', mem', eq⟩ := old
        rw [eq]
        exact hr.permanent r' mem'

/-- A commit is applied to the record of its place, or to a fresh one, and to no other. -/
theorem recordAt_upsert (h : st.Sound) (hr : Recorded st t) (hm : m.At st p)
    (pinned : ∀ s ∈ m.symbols, st.isPermanent s = true) (c : Commit) (q : Place) :
    (t.upsert m c).recordAt st q =
      if q = p then some (((t.recordAt st p).getD (.fresh m)).apply c) else t.recordAt st q := by
  split
  · next eq =>
      rw [eq, ← get?_eq_recordAt h (recorded_upsert hr hm pinned c) hm, get?_upsert_self,
        get?_eq_recordAt h hr hm]
  · next ne =>
      refine find?_upsertIn_away (fun m => decide (m.At st q)) c t.records ?_ ?_
      · simpa using fun at_q => ne (Method.At.place_eq h at_q hm (Method.same_self m))
      · intro r mem same
        simpa using fun at_q => ne (Method.At.place_eq h at_q hm same)

end StatTable

end ArenaPeak
