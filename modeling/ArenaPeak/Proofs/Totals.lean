import ArenaPeak.Counter
import ArenaPeak.Trace
import Mathlib.Data.List.Basic

/-!
Sums over the events of a compilation, said without a counter: the exact sum of the deltas under
some tags, the level of a count that the deltas move and that is held within a word, the place at
which the exact sums are first at their largest, and the live nodes the events report.
-/

namespace ArenaPeak.Trace

/-- What an event adds to the sum under the tags that count. -/
def share (counts : ArenaTag → Bool) (e : TraceEvent) : Int :=
  if counts e.tag then e.delta.toInt else 0

/-- The exact sum of the deltas under the tags that count. -/
def sum (counts : ArenaTag → Bool) : List TraceEvent → Int
  | [] => 0
  | e :: es => share counts e + sum counts es

/-- The sum of all deltas of the first `k` events. -/
def prefixSum (es : List TraceEvent) (k : Nat) : Int :=
  sum (fun _ => true) (es.take k)

/-- A count moved by an event and held between zero and the largest word. -/
def moved (counts : ArenaTag → Bool) (n : Nat) (e : TraceEvent) : Nat :=
  if counts e.tag then min maxWord ((n : Int) + e.delta.toInt).toNat else n

/-- Where a count that starts at `n` stands after a list of events. -/
def level (counts : ArenaTag → Bool) (n : Nat) (es : List TraceEvent) : Nat :=
  es.foldl (moved counts) n

/-- The live nodes reported last, or none. -/
def lastLive (es : List TraceEvent) : UInt32 :=
  es.foldl (fun n e => e.liveNodes.getD n) 0

/-- After `k` events the sum of the deltas is at its largest for the first time. Before any event
it is zero, so `k` is zero when no sum is positive. -/
structure FirstPeak (es : List TraceEvent) (k : Nat) : Prop where
  le_length : k ≤ es.length
  highest : ∀ j ≤ es.length, prefixSum es j ≤ prefixSum es k
  first : ∀ j < k, prefixSum es j < prefixSum es k

theorem sum_append (counts : ArenaTag → Bool) (es es' : List TraceEvent) :
    sum counts (es ++ es') = sum counts es + sum counts es' := by
  induction es with
  | nil => simp [sum]
  | cons e es ih => rw [List.cons_append, sum, sum, ih, Int.add_assoc]

@[simp]
theorem prefixSum_zero (es : List TraceEvent) : prefixSum es 0 = 0 := by
  simp [prefixSum, sum]

theorem prefixSum_length (es : List TraceEvent) :
    prefixSum es es.length = sum (fun _ => true) es := by
  rw [prefixSum, List.take_length]

theorem prefixSum_append {es : List TraceEvent} (es' : List TraceEvent) {k : Nat}
    (h : k ≤ es.length) : prefixSum (es ++ es') k = prefixSum es k := by
  rw [prefixSum, prefixSum, List.take_append_of_le_length h]

theorem prefixSum_snoc (es : List TraceEvent) (e : TraceEvent) :
    prefixSum (es ++ [e]) (es.length + 1) = prefixSum es es.length + e.delta.toInt := by
  have whole : es.length + 1 = (es ++ [e]).length := by simp
  rw [whole, prefixSum_length, prefixSum_length, sum_append]
  simp [sum, share]

theorem firstPeak_nil : FirstPeak [] 0 where
  le_length := Nat.le_refl 0
  highest j hj := by
    obtain rfl : j = 0 := Nat.le_zero.mp hj
    exact Int.le_refl _
  first j hj := absurd hj (Nat.not_lt_zero j)

/-- The prefixes of a longer list are those of the shorter one, and the whole. -/
theorem le_length_snoc {es : List TraceEvent} {e : TraceEvent} {j : Nat}
    (h : j ≤ (es ++ [e]).length) : j ≤ es.length ∨ j = es.length + 1 := by
  rw [List.length_append, List.length_singleton] at h
  omega

theorem firstPeak_snoc_of_lt {es : List TraceEvent} {k : Nat} (h : FirstPeak es k)
    {e : TraceEvent} (higher : prefixSum es k < prefixSum es es.length + e.delta.toInt) :
    FirstPeak (es ++ [e]) (es.length + 1) := by
  rw [← prefixSum_snoc] at higher
  have below (j : Nat) (hj : j ≤ es.length) :
      prefixSum (es ++ [e]) j < prefixSum (es ++ [e]) (es.length + 1) := by
    rw [prefixSum_append [e] hj]
    exact Int.lt_of_le_of_lt (h.highest j hj) higher
  refine ⟨by simp, ?_, ?_⟩
  · intro j hj
    cases le_length_snoc hj with
    | inl hj =>
        exact Int.le_of_lt (below j hj)
    | inr eq =>
        subst eq
        exact Int.le_refl _
  · intro j hj
    exact below j (Nat.le_of_lt_succ hj)

theorem firstPeak_snoc_of_le {es : List TraceEvent} {k : Nat} (h : FirstPeak es k)
    {e : TraceEvent} (below : prefixSum es es.length + e.delta.toInt ≤ prefixSum es k) :
    FirstPeak (es ++ [e]) k := by
  rw [← prefixSum_snoc] at below
  have same : prefixSum (es ++ [e]) k = prefixSum es k := prefixSum_append [e] h.le_length
  refine ⟨?_, ?_, ?_⟩
  · have := h.le_length
    simp only [List.length_append, List.length_singleton]
    omega
  · intro j hj
    cases le_length_snoc hj with
    | inl hj =>
        rw [same, prefixSum_append [e] hj]
        exact h.highest j hj
    | inr eq =>
        subst eq
        rwa [same]
  · intro j hj
    have := h.le_length
    rw [same, prefixSum_append [e] (by omega)]
    exact h.first j hj

theorem firstPeak_unique {es : List TraceEvent} {j k : Nat} (hj : FirstPeak es j)
    (hk : FirstPeak es k) : j = k := by
  have upper := hj.highest k hk.le_length
  have lower := hk.highest j hj.le_length
  by_cases lt : j < k
  · have := hk.first j lt
    omega
  · by_cases gt : k < j
    · have := hj.first k gt
      omega
    · omega

theorem sum_take_succ (counts : ArenaTag → Bool) (e : TraceEvent) (es : List TraceEvent) (k : Nat) :
    sum counts ((e :: es).take (k + 1)) = share counts e + sum counts (es.take k) := by
  rw [List.take_succ_cons, sum]

theorem prefixSum_cons (e : TraceEvent) (es : List TraceEvent) (k : Nat) :
    prefixSum (e :: es) (k + 1) = e.delta.toInt + prefixSum es k := by
  rw [prefixSum, sum_take_succ]
  rfl

theorem moved_le {counts : ArenaTag → Bool} {e : TraceEvent} {n : Nat} {x : Int} (below : n ≤ x)
    (nonneg : 0 ≤ x + share counts e) : (moved counts n e : Int) ≤ x + share counts e := by
  cases counted : counts e.tag with
  | false =>
      simp only [moved, share, counted, Bool.false_eq_true, if_false, Int.add_zero]
      exact below
  | true =>
      simp only [moved, share, counted, if_true] at nonneg ⊢
      omega

theorem moved_eq {counts : ArenaTag → Bool} {e : TraceEvent} {n : Nat}
    (nonneg : 0 ≤ n + share counts e) (fits : n + share counts e ≤ maxWord) :
    (moved counts n e : Int) = n + share counts e := by
  cases counted : counts e.tag with
  | false => simp only [moved, share, counted, Bool.false_eq_true, if_false, Int.add_zero]
  | true =>
      simp only [moved, share, counted, if_true] at nonneg fits ⊢
      omega

/-- A count held within a word stays below the exact one as long as that is not negative: only at
zero could it get ahead. -/
theorem level_le_sum {counts : ArenaTag → Bool} {es : List TraceEvent} {n : Nat} {x : Int}
    (below : n ≤ x) (nonneg : ∀ k ≤ es.length, 0 ≤ x + sum counts (es.take k)) :
    (level counts n es : Int) ≤ x + sum counts es := by
  induction es generalizing n x with
  | nil => simpa [level, sum] using below
  | cons e es ih =>
      have first : 0 ≤ x + share counts e := by
        simpa [sum] using nonneg 1 (by simp)
      rw [sum, ← Int.add_assoc]
      refine ih (moved_le below first) ?_
      intro k hk
      rw [Int.add_assoc, ← sum_take_succ]
      exact nonneg (k + 1) (by simpa using hk)

/-- A count whose exact values fit a word is exact. -/
theorem level_eq_sum {counts : ArenaTag → Bool} {es : List TraceEvent} {n : Nat}
    (nonneg : ∀ k ≤ es.length, 0 ≤ n + sum counts (es.take k))
    (fits : ∀ k ≤ es.length, n + sum counts (es.take k) ≤ maxWord) :
    (level counts n es : Int) = n + sum counts es := by
  induction es generalizing n with
  | nil => simp [level, sum]
  | cons e es ih =>
      have first : (moved counts n e : Int) = n + share counts e :=
        moved_eq (by simpa [sum] using nonneg 1 (by simp)) (by simpa [sum] using fits 1 (by simp))
      rw [sum, ← Int.add_assoc, ← first]
      refine ih ?_ ?_
      · intro k hk
        rw [first, Int.add_assoc, ← sum_take_succ]
        exact nonneg (k + 1) (by simpa using hk)
      · intro k hk
        rw [first, Int.add_assoc, ← sum_take_succ]
        exact fits (k + 1) (by simpa using hk)

/-- A count that starts at zero is back at zero when the exact one is. -/
theorem level_eq_zero {counts : ArenaTag → Bool} {es : List TraceEvent}
    (nonneg : ∀ k ≤ es.length, 0 ≤ sum counts (es.take k)) (balanced : sum counts es = 0) :
    level counts 0 es = 0 := by
  have : (level counts 0 es : Int) ≤ 0 + sum counts es :=
    level_le_sum (Int.le_refl 0) (by simpa using nonneg)
  omega

end ArenaPeak.Trace
