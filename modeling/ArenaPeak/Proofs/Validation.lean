import ArenaPeak.Proofs.ReplaySafety

/-!
What validation decides. A trace is meant to be valid when every compilation is named, prints only
what it collects, and never has a negative sum of deltas. Validation follows a total that is held
within a signed word: it lies at or below the exact sum as long as nothing is rejected, and it is
the exact sum up to the first negative one as long as no sum exceeds the largest signed word. So
what is accepted is always meant to be valid, and within that bound what is rejected is reported by
the first offence of the first compilation that has one: the report names the compilation by its
place, and by its class and method where it has them, and the event by its place among those of the
compilation.
-/

namespace ArenaPeak.Trace

/-! ### Intent -/

def Named (c : TraceCompilation) : Prop :=
  c.owner ≠ "" ∧ c.method ≠ ""

def PrintsCollected (c : TraceCompilation) : Prop :=
  ∀ d, c.directive = some d → d.print = true → d.collect = true

def NeverNegative (c : TraceCompilation) : Prop :=
  ∀ k ≤ c.events.length, 0 ≤ prefixSum c.events k

structure Intended (c : TraceCompilation) : Prop where
  named : Named c
  collected : PrintsCollected c
  afforded : NeverNegative c

/-- From the exact total on, event `j` is the first after which the sum is negative. -/
structure FirstNegative (total : Int) (es : List TraceEvent) (j : Nat) : Prop where
  there : j < es.length
  negative : total + prefixSum es (j + 1) < 0
  first : ∀ k ≤ j, 0 ≤ total + prefixSum es k

/-- What a fault is reported by. -/
inductive Fault.Worded : Fault → String → Prop
  | unnamed (i : Nat) : Worded (.unnamed i)
      ("invalid trace: compilation #" ++ toString i ++ ": class and method must be non-empty")
  | printsUncollected (i : Nat) (owner method : String) :
      Worded (.printsUncollected i owner method)
        ("invalid trace: " ++
          ("compilation #" ++ toString i ++ " (" ++ owner ++ "::" ++ method ++ ")") ++
          ": print requires collect")
  | freesTooMuch (i : Nat) (owner method : String) (j : Nat) :
      Worded (.freesTooMuch i owner method j)
        ("invalid trace: " ++
          ("compilation #" ++ toString i ++ " (" ++ owner ++ "::" ++ method ++ ")") ++
          ": event #" ++ toString j ++ " frees more than was allocated")

theorem Fault.worded_message (fault : Fault) : fault.Worded fault.message := by
  cases fault with
  | unnamed i => exact .unnamed i
  | printsUncollected i owner method => exact .printsUncollected i owner method
  | freesTooMuch i owner method j => exact .freesTooMuch i owner method j

/-- The first of the three conditions that the compilation at a place violates, as reported. -/
inductive Offence (i : Nat) (c : TraceCompilation) : Fault → Prop
  | unnamed (nameless : ¬ Named c) : Offence i c (.unnamed i)
  | printsUncollected (named : Named c) (uncollected : ¬ PrintsCollected c) :
      Offence i c (.printsUncollected i c.owner c.method)
  | freesTooMuch (named : Named c) (collected : PrintsCollected c) (j : Nat)
      (negative : FirstNegative 0 c.events j) : Offence i c (.freesTooMuch i c.owner c.method j)

/-- The offence of the first compilation that has one. -/
def FirstOffence (t : Trace) (fault : Fault) : Prop :=
  ∃ i c, t.compilations[i]? = some c ∧
    (∀ k < i, ∀ c', t.compilations[k]? = some c' → Intended c') ∧ Offence i c fault

/-- No exact sum exceeds the largest signed word. -/
def Bounded (t : Trace) : Prop :=
  ∀ c ∈ t.compilations, ∀ k ≤ c.events.length, prefixSum c.events k ≤ Int64.maxValue.toInt

/-! ### The total -/

variable {total exact : Int} {delta : Int64} {e : TraceEvent} {es : List TraceEvent}
variable {index : Nat} {c : TraceCompilation} {fault : Fault}

/-- Only at the largest word does the total fall behind the exact sum. -/
theorem addTotal_le_exact (h : 0 ≤ addTotal total delta) :
    addTotal total delta ≤ total + delta.toInt := by
  have low : Int64.minValue.toInt < 0 := by decide
  rw [addTotal] at h ⊢
  omega

theorem addTotal_eq (nonneg : 0 ≤ total + delta.toInt)
    (fits : total + delta.toInt ≤ Int64.maxValue.toInt) :
    addTotal total delta = total + delta.toInt := by
  have low : Int64.minValue.toInt < 0 := by decide
  rw [addTotal]
  omega

theorem addTotal_neg (negative : total + delta.toInt < 0) : addTotal total delta < 0 := by
  have low : Int64.minValue.toInt < 0 := by decide
  rw [addTotal]
  omega

/-- What the scan passes has no negative sum: the total never gets ahead of the exact one. -/
theorem nonneg_of_firstOverfree (below : total ≤ exact) (nonneg : 0 ≤ exact)
    (passed : firstOverfree total index es = none) :
    ∀ k ≤ es.length, 0 ≤ exact + prefixSum es k := by
  induction es generalizing total exact index with
  | nil =>
      intro k _
      simpa [prefixSum, sum] using nonneg
  | cons e es ih =>
      intro k hk
      simp only [firstOverfree] at passed
      split at passed
      · cases passed
      · next enough =>
          have enough := Int.not_lt.mp enough
          have step := addTotal_le_exact enough
          cases k with
          | zero => simpa using nonneg
          | succ k =>
              rw [prefixSum_cons, ← Int.add_assoc]
              exact ih (by omega) (by omega) passed k (Nat.le_of_succ_le_succ hk)

theorem firstNegative_zero :
    FirstNegative total (e :: es) 0 ↔ 0 ≤ total ∧ total + e.delta.toInt < 0 := by
  constructor
  · intro h
    have start := h.first 0 (Nat.le_refl 0)
    have negative := h.negative
    rw [prefixSum_cons, prefixSum_zero] at negative
    rw [prefixSum_zero] at start
    omega
  · rintro ⟨nonneg, negative⟩
    refine ⟨by simp, by simpa [prefixSum_cons] using negative, ?_⟩
    intro k hk
    obtain rfl := Nat.le_zero.mp hk
    simpa using nonneg

theorem firstNegative_succ {j : Nat} : FirstNegative total (e :: es) (j + 1) ↔
    0 ≤ total ∧ FirstNegative (total + e.delta.toInt) es j := by
  constructor
  · intro h
    have start := h.first 0 (Nat.zero_le _)
    rw [prefixSum_zero, Int.add_zero] at start
    refine ⟨start, Nat.lt_of_succ_lt_succ h.there, ?_, ?_⟩
    · rw [Int.add_assoc, ← prefixSum_cons]
      exact h.negative
    · intro k hk
      rw [Int.add_assoc, ← prefixSum_cons]
      exact h.first (k + 1) (Nat.succ_le_succ hk)
  · rintro ⟨nonneg, h⟩
    refine ⟨Nat.succ_lt_succ h.there, ?_, ?_⟩
    · rw [prefixSum_cons, ← Int.add_assoc]
      exact h.negative
    · intro k hk
      cases k with
      | zero => simpa using nonneg
      | succ k =>
          rw [prefixSum_cons, ← Int.add_assoc]
          exact h.first k (Nat.le_of_succ_le_succ hk)

/-- Within the bound the scan stops at the first negative exact sum. -/
theorem firstOverfree_eq_some (nonneg : 0 ≤ total)
    (fits : ∀ k ≤ es.length, total + prefixSum es k ≤ Int64.maxValue.toInt) {event : Nat} :
    firstOverfree total index es = some event ↔
      ∃ j, event = index + j ∧ FirstNegative total es j := by
  induction es generalizing total index with
  | nil =>
      constructor
      · intro found
        cases found
      · rintro ⟨j, -, negative⟩
        exact absurd negative.there (Nat.not_lt_zero j)
  | cons e es ih =>
      simp only [firstOverfree]
      cases Int.lt_or_le (total + e.delta.toInt) 0 with
      | inl negative =>
          rw [if_pos (addTotal_neg negative)]
          constructor
          · intro found
            cases found
            exact ⟨0, rfl, firstNegative_zero.mpr ⟨nonneg, negative⟩⟩
          · rintro ⟨j, rfl, h⟩
            cases j with
            | zero => rfl
            | succ j =>
                have start := (firstNegative_succ.mp h).2.first 0 (Nat.zero_le j)
                rw [prefixSum_zero] at start
                omega
      | inr enough =>
          have one : total + e.delta.toInt ≤ Int64.maxValue.toInt := by
            simpa [prefixSum_cons] using fits 1 (by simp)
          rw [addTotal_eq enough one, if_neg (Int.not_lt.mpr enough), ih enough]
          · constructor
            · rintro ⟨j, rfl, h⟩
              exact ⟨j + 1, by omega, firstNegative_succ.mpr ⟨nonneg, h⟩⟩
            · rintro ⟨j, rfl, h⟩
              cases j with
              | zero =>
                  have negative := (firstNegative_zero.mp h).2
                  omega
              | succ j => exact ⟨j, by omega, (firstNegative_succ.mp h).2⟩
          · intro k hk
            rw [Int.add_assoc, ← prefixSum_cons]
            exact fits (k + 1) (Nat.succ_le_succ hk)

/-! ### One compilation -/

theorem named_iff : (c.owner.isEmpty || c.method.isEmpty) = false ↔ Named c := by
  rw [Bool.or_eq_false_iff, Named, ← Bool.not_eq_true, ← Bool.not_eq_true, String.isEmpty_iff,
    String.isEmpty_iff]

theorem collected_iff :
    (c.directive.any fun d => d.print && !d.collect) = false ↔ PrintsCollected c := by
  rw [PrintsCollected]
  cases c.directive with
  | none => simp
  | some d => cases d.print <;> cases h : d.collect <;> simp [h]

theorem faultOf_nameless (nameless : ¬ Named c) : faultOf index c = some (.unnamed index) := by
  rw [← named_iff, Bool.not_eq_false] at nameless
  rw [faultOf, if_pos nameless]

theorem faultOf_uncollected (named : Named c) (uncollected : ¬ PrintsCollected c) :
    faultOf index c = some (.printsUncollected index c.owner c.method) := by
  rw [← collected_iff, Bool.not_eq_false] at uncollected
  rw [faultOf, if_neg (Bool.eq_false_iff.mp (named_iff.mpr named)), if_pos uncollected]

theorem faultOf_collected (named : Named c) (collected : PrintsCollected c) :
    faultOf index c =
      (firstOverfree 0 0 c.events).map fun j => .freesTooMuch index c.owner c.method j := by
  rw [faultOf, if_neg (Bool.eq_false_iff.mp (named_iff.mpr named)),
    if_neg (Bool.eq_false_iff.mp (collected_iff.mpr collected))]

/-- A compilation without a fault is as intended, however large its sums. -/
theorem intended_of_faultOf (passed : faultOf index c = none) : Intended c := by
  by_cases named : Named c
  · by_cases collected : PrintsCollected c
    · rw [faultOf_collected named collected, Option.map_eq_none_iff] at passed
      refine ⟨named, collected, ?_⟩
      simpa [NeverNegative] using nonneg_of_firstOverfree (Int.le_refl 0) (Int.le_refl 0) passed
    · rw [faultOf_uncollected named collected] at passed
      cases passed
  · rw [faultOf_nameless named] at passed
    cases passed

theorem faultOf_eq_some
    (fits : ∀ k ≤ c.events.length, prefixSum c.events k ≤ Int64.maxValue.toInt) :
    faultOf index c = some fault ↔ Offence index c fault := by
  have scan (j : Nat) : firstOverfree 0 0 c.events = some j ↔ FirstNegative 0 c.events j := by
    rw [firstOverfree_eq_some (Int.le_refl 0) (by simpa using fits)]
    simp
  constructor
  · intro found
    by_cases named : Named c
    · by_cases collected : PrintsCollected c
      · rw [faultOf_collected named collected, Option.map_eq_some_iff] at found
        obtain ⟨j, found, rfl⟩ := found
        exact .freesTooMuch named collected j ((scan j).mp found)
      · rw [faultOf_uncollected named collected] at found
        cases found
        exact .printsUncollected named collected
    · rw [faultOf_nameless named] at found
      cases found
      exact .unnamed named
  · intro offence
    cases offence with
    | unnamed nameless => exact faultOf_nameless nameless
    | printsUncollected named uncollected => exact faultOf_uncollected named uncollected
    | freesTooMuch named collected j negative =>
        rw [faultOf_collected named collected, (scan j).mpr negative]
        rfl

theorem Intended.no_offence (intended : Intended c) : ¬ Offence index c fault := by
  intro offence
  cases offence with
  | unnamed nameless => exact nameless intended.named
  | printsUncollected _ uncollected => exact uncollected intended.collected
  | freesTooMuch _ _ j negative =>
      have here := negative.negative
      rw [Int.zero_add] at here
      exact absurd (intended.afforded (j + 1) negative.there) (Int.not_le.mpr here)

theorem faultOf_eq_none
    (fits : ∀ k ≤ c.events.length, prefixSum c.events k ≤ Int64.maxValue.toInt) :
    faultOf index c = none ↔ Intended c := by
  refine ⟨intended_of_faultOf, fun intended => ?_⟩
  cases found : faultOf index c with
  | none => rfl
  | some fault => exact absurd ((faultOf_eq_some fits).mp found) intended.no_offence

/-! ### All compilations -/

theorem firstFault_eq_some {cs : List TraceCompilation} :
    firstFault index cs = some fault ↔ ∃ i c, cs[i]? = some c ∧
      (∀ k < i, ∀ c', cs[k]? = some c' → faultOf (index + k) c' = none) ∧
        faultOf (index + i) c = some fault := by
  induction cs generalizing index with
  | nil => simp [firstFault]
  | cons c cs ih =>
      rw [firstFault]
      cases first : faultOf index c with
      | some fault' =>
          constructor
          · intro found
            cases found
            exact ⟨0, c, rfl, by simp, first⟩
          · rintro ⟨i, c', at_i, before, found⟩
            cases i with
            | zero =>
                cases at_i
                exact first.symm.trans found
            | succ i =>
                have none := before 0 (Nat.succ_pos i) c rfl
                rw [Nat.add_zero, first] at none
                cases none
      | none =>
          have next (k : Nat) : index + (k + 1) = index + 1 + k := by omega
          constructor
          · intro found
            obtain ⟨i, c', at_i, before, found⟩ := ih.mp found
            refine ⟨i + 1, c', at_i, ?_, next i ▸ found⟩
            intro k hk d at_k
            cases k with
            | zero =>
                cases at_k
                exact first
            | succ k => exact next k ▸ before k (Nat.lt_of_succ_lt_succ hk) d at_k
          · rintro ⟨i, c', at_i, before, found⟩
            cases i with
            | zero =>
                cases at_i
                rw [Nat.add_zero, first] at found
                cases found
            | succ i =>
                refine ih.mpr ⟨i, c', at_i, ?_, next i ▸ found⟩
                intro k hk d at_k
                exact next k ▸ before (k + 1) (Nat.succ_lt_succ hk) d at_k

variable {t : Trace}

theorem validate_eq_ok : t.validate = .ok () ↔ firstFault 0 t.compilations = none := by
  rw [validate]
  cases firstFault 0 t.compilations <;> simp

theorem validate_eq_error :
    t.validate = .error fault ↔ firstFault 0 t.compilations = some fault := by
  rw [validate]
  cases firstFault 0 t.compilations <;> simp

theorem intended_of_validate (accepted : t.validate = .ok ()) :
    ∀ c ∈ t.compilations, Intended c := by
  intro c mem
  obtain ⟨_, passed⟩ := faultOf_of_firstFault (validate_eq_ok.mp accepted) mem
  exact intended_of_faultOf passed

theorem validate_eq_error_iff (bounded : t.Bounded) :
    t.validate = .error fault ↔ t.FirstOffence fault := by
  have within {i : Nat} {c : TraceCompilation} (at_i : t.compilations[i]? = some c) :=
    bounded c (List.mem_of_getElem? at_i)
  rw [validate_eq_error, firstFault_eq_some, FirstOffence]
  constructor
  · rintro ⟨i, c, at_i, before, found⟩
    rw [Nat.zero_add, faultOf_eq_some (within at_i)] at found
    refine ⟨i, c, at_i, ?_, found⟩
    intro k hk c' at_k
    exact intended_of_faultOf (before k hk c' at_k)
  · rintro ⟨i, c, at_i, before, offence⟩
    refine ⟨i, c, at_i, ?_, ?_⟩
    · intro k hk c' at_k
      exact (faultOf_eq_none (within at_k)).mpr (before k hk c' at_k)
    · rw [Nat.zero_add]
      exact (faultOf_eq_some (within at_i)).mpr offence

/-- What validation accepts is as intended. Where no exact sum exceeds the largest signed word it
accepts all that is, and of the rest it reports the first offence, in so many words. -/
theorem validate_decides (t : Trace) :
    (t.validate = .ok () → ∀ c ∈ t.compilations, Intended c) ∧
    (t.Bounded → (∀ c ∈ t.compilations, Intended c) → t.validate = .ok ()) ∧
    (t.Bounded → (¬ ∀ c ∈ t.compilations, Intended c) →
      ∃ fault, t.FirstOffence fault ∧ t.validate = .error fault ∧ fault.Worded fault.message) := by
  refine ⟨intended_of_validate, ?_, ?_⟩
  · intro bounded intended
    cases decided : t.validate with
    | ok _ => rfl
    | error fault =>
        obtain ⟨i, c, at_i, -, offence⟩ := (validate_eq_error_iff bounded).mp decided
        exact absurd offence (intended c (List.mem_of_getElem? at_i)).no_offence
  · intro bounded offends
    cases decided : t.validate with
    | ok _ => exact absurd (intended_of_validate decided) offends
    | error fault =>
        exact ⟨fault, (validate_eq_error_iff bounded).mp decided, rfl, fault.worded_message⟩

/-- Past the largest signed word the total can be negative where no sum is. -/
example :
    let c : TraceCompilation := ⟨"A", "run", "()V", .c2, none, [⟨.maxValue, .node, none⟩,
      ⟨8, .node, none⟩, ⟨-8, .node, none⟩, ⟨-.maxValue, .node, none⟩]⟩
    (∀ k ≤ c.events.length, 0 ≤ prefixSum c.events k) ∧
      validate ⟨none, [c]⟩ = .error (.freesTooMuch 0 "A" "run" 3) := by
  decide

end ArenaPeak.Trace
