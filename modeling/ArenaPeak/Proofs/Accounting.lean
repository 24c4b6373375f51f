import ArenaPeak.Counter

/-!
What one accounted event does to a peak counter. As long as the counter stands no higher than its
peak and the event frees no more than is there, no contract is violated and the counter after the
event is the same in both flavours.
-/

namespace ArenaPeak

/-- Only an allocation makes a count larger. -/
theorem pos_of_lt_shift {count : UInt64} {delta : Int64} (h : count < shift count delta) :
    0 < delta := by
  rw [UInt64.lt_iff_toNat_lt, shift_toNat] at h
  rw [Int64.lt_iff_toInt_lt, Int64.toInt_zero]
  omega

namespace PeakCounter

/-- Neither the bytes nor the baseline stand above the peak. -/
structure Sound (c : PeakCounter) : Prop where
  current_le : c.current ≤ c.peak
  start_le : c.start ≤ c.peak

theorem sound_zero : zero.Sound :=
  ⟨by decide, by decide⟩

theorem sound_restart (c : PeakCounter) : c.restart.Sound :=
  ⟨UInt64.le_refl _, UInt64.le_refl _⟩

/-- The counter after an event that violates no contract. -/
def add (c : PeakCounter) (delta : Int64) (tag : ArenaTag) (live : Option UInt32) : PeakCounter :=
  if (c.move delta tag).current ≤ c.peak then c.move delta tag else (c.move delta tag).sample live

variable (c : PeakCounter) (delta : Int64) (tag : ArenaTag) (live : Option UInt32)

@[simp]
theorem move_current : (c.move delta tag).current = shift c.current delta := by
  cases tag <;> rfl

@[simp]
theorem move_start : (c.move delta tag).start = c.start := by
  cases tag <;> rfl

@[simp]
theorem move_peak : (c.move delta tag).peak = c.peak := by
  cases tag <;> rfl

theorem move_node :
    (c.move delta tag).node = if tag = .node then shift c.node delta else c.node := by
  cases tag <;> rfl

theorem move_resource :
    (c.move delta tag).resource =
      if tag = .resource then shift c.resource delta else c.resource := by
  cases tag <;> rfl

theorem account_of_passed (f : Flavour) (below : c.current ≤ c.peak)
    (passed : f.assert (decide (0 ≤ c.current.toNat + delta.toInt))
      (.freedTooMuch delta c.current c.start c.peak) = .ok ()) :
    c.account f delta tag live =
      .ok (decide (c.peak < shift c.current delta), c.add delta tag live) := by
  have growth : c.peak < shift c.current delta → 0 < delta :=
    fun h => pos_of_lt_shift (UInt64.lt_of_le_of_lt below h)
  simp only [account, add, passed, move_current, move_peak]
  by_cases h : shift c.current delta ≤ c.peak
  · have : ¬ c.peak < shift c.current delta := UInt64.not_lt.mpr h
    simp [bind, Except.bind, pure, Except.pure, h, this]
  · have h' : c.peak < shift c.current delta := UInt64.not_le.mp h
    simp [bind, Except.bind, pure, Except.pure, h, h', growth h', Flavour.assert_true]

theorem account_eq (f : Flavour) (below : c.current ≤ c.peak)
    (enough : 0 ≤ c.current.toNat + delta.toInt) :
    c.account f delta tag live =
      .ok (decide (c.peak < shift c.current delta), c.add delta tag live) :=
  account_of_passed c delta tag live f below (by rw [decide_eq_true enough, Flavour.assert_true])

/-- A new peak is sampled in full. -/
theorem add_of_lt (h : c.peak < shift c.current delta) :
    c.add delta tag live = (c.move delta tag).sample live := by
  have : ¬ shift c.current delta ≤ c.peak := UInt64.not_le.mpr h
  simp [add, this]

/-- Below the peak only the totals move. -/
theorem add_of_le (h : shift c.current delta ≤ c.peak) :
    c.add delta tag live = c.move delta tag := by
  simp [add, h]

@[simp]
theorem add_current : (c.add delta tag live).current = shift c.current delta := by
  rw [add]
  split <;> simp [sample]

@[simp]
theorem add_start : (c.add delta tag live).start = c.start := by
  rw [add]
  split <;> simp [sample]

@[simp]
theorem add_node :
    (c.add delta tag live).node = if tag = .node then shift c.node delta else c.node := by
  rw [add]
  split <;> simp [sample, move_node]

@[simp]
theorem add_resource :
    (c.add delta tag live).resource =
      if tag = .resource then shift c.resource delta else c.resource := by
  rw [add]
  split <;> simp [sample, move_resource]

/-- Without a source the old sample of the live nodes stays. -/
@[simp]
theorem add_liveNodes_none :
    (c.add delta tag none).liveNodesAtPeak = c.liveNodesAtPeak := by
  rw [add]
  split <;> cases tag <;> rfl

theorem le_add_peak : c.peak ≤ (c.add delta tag live).peak := by
  rw [add]
  split
  · simp
  · next h => simpa [sample] using UInt64.le_of_lt (UInt64.not_le.mp h)

theorem sound_add {c : PeakCounter} (h : c.Sound) : (c.add delta tag live).Sound := by
  refine ⟨?_, ?_⟩
  · rw [add]
    split
    · next below => simpa using below
    · simp [sample]
  · rw [add_start]
    exact UInt64.le_trans h.start_le (le_add_peak c delta tag live)

end PeakCounter

end ArenaPeak
