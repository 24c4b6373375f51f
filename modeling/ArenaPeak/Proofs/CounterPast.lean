import ArenaPeak.Proofs.InPlace
import ArenaPeak.Proofs.Totals
import Mathlib.Data.List.Induction

/-!
A counter told by its past. The past is the list of the calls that took effect, the newest first: all
calls in a release build, and in a debug build those that free no more than there is. Totals, levels
and peaks are read off it without a counter: a level is where the bytes stood at the last restart or
after a call since, and a call reaches a peak when it takes the bytes above all levels before it.
What one call does keeps a counter in step with its past, so after any calls the peak is the highest
level and the samples are the totals of the last call that reached one.
-/

namespace ArenaPeak.PeakCounter

/-! ### The past -/

/-- The calls that took effect, the newest first. -/
abbrev Past := List Call

/-- What a call adds to the exact sum under the tags that count. -/
def Call.share (counts : ArenaTag → Bool) : Call → Int
  | .restart => 0
  | .account delta tag live => Trace.share counts ⟨delta, tag, live⟩

namespace Past

/-- The exact sum of the deltas under the tags that count. -/
def sum (counts : ArenaTag → Bool) : Past → Int
  | [] => 0
  | call :: past => call.share counts + sum counts past

/-- The total under the tags that count, held between zero and the largest word by every call. -/
def total (counts : ArenaTag → Bool) : Past → Nat
  | [] => 0
  | .restart :: past => total counts past
  | .account delta tag live :: past => Trace.moved counts (total counts past) ⟨delta, tag, live⟩

def bytes (past : Past) : Nat :=
  total (fun _ => true) past

/-- The bytes at the last restart, or none. -/
def base : Past → Nat
  | [] => 0
  | .restart :: past => bytes past
  | .account _ _ _ :: past => base past

/-- The bytes at the last restart and after every account since. -/
def levels : Past → List Nat
  | [] => [0]
  | .restart :: past => [bytes past]
  | .account delta tag live :: past => bytes (.account delta tag live :: past) :: levels past

/-- Whether the newest call is an account that took the bytes above all levels before it. -/
def reaches : Past → Bool
  | .account delta tag live :: past =>
      decide (∀ n ∈ levels past, n < bytes (.account delta tag live :: past))
  | _ => false

/-- The past as it was right after the last account that reached a peak. -/
def upToPeak : Past → Past
  | [] => []
  | call :: past => if reaches (call :: past) then call :: past else upToPeak past

/-- What the source of live nodes gave to the last account that had one and reached a peak. -/
def lastLive : Past → UInt32
  | .account delta tag (some n) :: past =>
      if reaches (.account delta tag (some n) :: past) then n else lastLive past
  | _ :: past => lastLive past
  | [] => 0

/-- No exact sum under the tags that count has ever left the range of a word. -/
def InRange (counts : ArenaTag → Bool) (past : Past) : Prop :=
  ∀ earlier, earlier <:+ past → 0 ≤ sum counts earlier ∧ sum counts earlier ≤ maxWord

/-- A debug build refuses to free more than there is. -/
def Refuses (f : Flavour) (past : Past) : Call → Prop
  | .restart => False
  | .account delta _ _ => f = .debug ∧ (bytes past : Int) + delta.toInt < 0

instance (f : Flavour) (past : Past) (call : Call) : Decidable (Refuses f past call) :=
  match call with
  | .restart => inferInstanceAs (Decidable False)
  | .account _ _ _ => inferInstanceAs (Decidable (_ ∧ _))

def record (f : Flavour) (past : Past) (call : Call) : Past :=
  if Refuses f past call then past else call :: past

/-- The past of a new counter after some calls. -/
def ofCalls (f : Flavour) (calls : List Call) : Past :=
  calls.foldl (record f) []

end Past

open Past

/-- A counter shows what its past says. -/
structure Portrays (c : PeakCounter) (past : Past) : Prop where
  current : c.current.toNat = bytes past
  start : c.start.toNat = base past
  peak : c.peak.toNat ∈ levels past
  le_peak : ∀ n ∈ levels past, n ≤ c.peak.toNat
  node : c.node.toNat = total (· == .node) past
  resource : c.resource.toNat = total (· == .resource) past
  nodeAtPeak : c.nodeAtPeak.toNat = total (· == .node) (upToPeak past)
  resourceAtPeak : c.resourceAtPeak.toNat = total (· == .resource) (upToPeak past)
  liveNodesAtPeak : c.liveNodesAtPeak = lastLive past

variable {f : Flavour} {c : PeakCounter} {past : Past} {delta : Int64} {tag : ArenaTag}
variable {live : Option UInt32} {call : Call}

theorem bytes_mem_levels (past : Past) : bytes past ∈ levels past := by
  cases past with
  | nil => exact List.mem_singleton_self 0
  | cons call past =>
      cases call with
      | restart => exact List.mem_singleton_self _
      | account delta tag live => exact List.mem_cons_self

theorem base_mem_levels (past : Past) : base past ∈ levels past := by
  induction past with
  | nil => exact List.mem_singleton_self 0
  | cons call past ih =>
      cases call with
      | restart => exact List.mem_singleton_self _
      | account delta tag live => exact List.mem_cons_of_mem _ ih

theorem Portrays.sound (h : c.Portrays past) : c.Sound where
  current_le := by
    rw [UInt64.le_iff_toNat_le, h.current]
    exact h.le_peak _ (bytes_mem_levels past)
  start_le := by
    rw [UInt64.le_iff_toNat_le, h.start]
    exact h.le_peak _ (base_mem_levels past)

/-! ### One call -/

theorem moved_toNat {counts : ArenaTag → Bool} {count : UInt64} {n : Nat}
    (eq : count.toNat = n) : Trace.moved counts n ⟨delta, tag, live⟩ =
      (if counts tag then shift count delta else count).toNat := by
  rw [Trace.moved, ← eq]
  split <;> simp [shift_toNat]

theorem Portrays.bytes_eq (h : c.Portrays past) :
    bytes (.account delta tag live :: past) = (shift c.current delta).toNat := by
  rw [bytes, total, ← bytes, moved_toNat h.current, if_pos rfl]

theorem Portrays.node_add (h : c.Portrays past) : (c.add delta tag live).node.toNat =
    total (· == .node) (.account delta tag live :: past) := by
  rw [total, moved_toNat h.node, add_node]
  simp

theorem Portrays.resource_add (h : c.Portrays past) : (c.add delta tag live).resource.toNat =
    total (· == .resource) (.account delta tag live :: past) := by
  rw [total, moved_toNat h.resource, add_resource]
  simp

/-- The counter compares with its peak only, which stands for all levels. -/
theorem Portrays.reaches_eq (h : c.Portrays past) :
    reaches (.account delta tag live :: past) = decide (c.peak < shift c.current delta) := by
  rw [reaches, decide_eq_decide, UInt64.lt_iff_toNat_lt, h.bytes_eq]
  constructor
  · intro above
    exact above _ h.peak
  · intro above n mem
    exact Nat.lt_of_le_of_lt (h.le_peak n mem) above

theorem lastLive_account : lastLive (.account delta tag live :: past) =
    if reaches (.account delta tag live :: past) then live.getD (lastLive past)
    else lastLive past := by
  cases live <;> simp [lastLive]

theorem portrays_zero : zero.Portrays [] where
  current := rfl
  start := rfl
  peak := List.mem_singleton_self 0
  le_peak _ mem := Nat.le_of_eq (List.mem_singleton.mp mem)
  node := rfl
  resource := rfl
  nodeAtPeak := rfl
  resourceAtPeak := rfl
  liveNodesAtPeak := rfl

theorem Portrays.restart (h : c.Portrays past) : c.restart.Portrays (.restart :: past) where
  current := h.current
  start := h.current
  peak := List.mem_singleton.mpr h.current
  le_peak _ mem := Nat.le_of_eq ((List.mem_singleton.mp mem).trans h.current.symm)
  node := h.node
  resource := h.resource
  nodeAtPeak := h.nodeAtPeak
  resourceAtPeak := h.resourceAtPeak
  liveNodesAtPeak := h.liveNodesAtPeak

/-- Above all levels, everything is sampled. -/
theorem Portrays.add_above (h : c.Portrays past) (above : c.peak < shift c.current delta) :
    (c.add delta tag live).Portrays (.account delta tag live :: past) := by
  have reached : reaches (.account delta tag live :: past) = true := by
    rw [h.reaches_eq, decide_eq_true above]
  have newest : upToPeak (.account delta tag live :: past) = .account delta tag live :: past := by
    rw [upToPeak, if_pos reached]
  have sampled := add_of_lt c delta tag live above
  have peak : (c.add delta tag live).peak.toNat = bytes (.account delta tag live :: past) := by
    rw [sampled, h.bytes_eq, sample, move_current]
  refine ⟨?_, ?_, ?_, ?_, h.node_add, h.resource_add, ?_, ?_, ?_⟩
  · rw [add_current, h.bytes_eq]
  · rw [add_start]
    exact h.start
  · rw [peak]
    exact List.mem_cons_self
  · intro n mem
    rw [peak]
    cases List.mem_cons.mp mem with
    | inl eq => exact Nat.le_of_eq eq
    | inr mem =>
        rw [h.bytes_eq]
        exact Nat.le_of_lt (Nat.lt_of_le_of_lt (h.le_peak n mem) above)
  · rw [newest, ← h.node_add, sampled]
    rfl
  · rw [newest, ← h.resource_add, sampled]
    rfl
  · rw [lastLive_account, if_pos reached, sampled, ← h.liveNodesAtPeak]
    cases tag <;> rfl

/-- At or below some level, the peak and the samples stay. -/
theorem Portrays.add_below (h : c.Portrays past) (below : shift c.current delta ≤ c.peak) :
    (c.add delta tag live).Portrays (.account delta tag live :: past) := by
  have missed : ¬ reaches (.account delta tag live :: past) = true := by
    rw [h.reaches_eq, decide_eq_true_eq]
    exact UInt64.not_lt.mpr below
  have older : upToPeak (.account delta tag live :: past) = upToPeak past := by
    rw [upToPeak, if_neg missed]
  have moved := add_of_le c delta tag live below
  have peak : (c.add delta tag live).peak = c.peak := by
    rw [moved, move_peak]
  refine ⟨?_, ?_, ?_, ?_, h.node_add, h.resource_add, ?_, ?_, ?_⟩
  · rw [add_current, h.bytes_eq]
  · rw [add_start]
    exact h.start
  · rw [peak]
    exact List.mem_cons_of_mem _ h.peak
  · intro n mem
    rw [peak]
    cases List.mem_cons.mp mem with
    | inl eq =>
        rw [eq, h.bytes_eq]
        exact below
    | inr mem => exact h.le_peak n mem
  · rw [older, ← h.nodeAtPeak, moved]
    cases tag <;> rfl
  · rw [older, ← h.resourceAtPeak, moved]
    cases tag <;> rfl
  · rw [lastLive_account, if_neg missed, moved, ← h.liveNodesAtPeak]
    cases tag <;> rfl

theorem Portrays.add (h : c.Portrays past) :
    (c.add delta tag live).Portrays (.account delta tag live :: past) := by
  cases UInt64.lt_or_le c.peak (shift c.current delta) with
  | inl above => exact h.add_above above
  | inr below => exact h.add_below below

/-! ### Calls in either build -/

theorem Portrays.passes (h : c.Portrays past) (accepted : ¬ Refuses f past (.account delta tag live))
    (v : Violation) : f.assert (decide (0 ≤ c.current.toNat + delta.toInt)) v = .ok () := by
  cases f with
  | release => exact Flavour.assert_release _ v
  | debug =>
      have enough : (0 : Int) ≤ c.current.toNat + delta.toInt := by
        rw [h.current]
        exact Int.not_lt.mp fun short => accepted ⟨rfl, short⟩
      rw [decide_eq_true enough, Flavour.assert_true]

theorem Portrays.account_accepted (h : c.Portrays past)
    (accepted : ¬ Refuses f past (.account delta tag live)) : c.account f delta tag live =
      .ok (reaches (.account delta tag live :: past), c.add delta tag live) := by
  rw [h.reaches_eq]
  exact account_of_passed c delta tag live f h.sound.current_le (h.passes accepted _)

theorem Portrays.account_refused (h : c.Portrays past)
    (refused : Refuses f past (.account delta tag live)) : c.account f delta tag live =
      .error (.freedTooMuch delta c.current c.start c.peak) := by
  obtain ⟨rfl, short⟩ := refused
  rw [← h.current] at short
  rw [account, decide_eq_false (Int.not_le.mpr short), Flavour.assert_debug_false]
  rfl

/-- Every call keeps a counter in step with its past, whether it takes effect or not. -/
theorem Portrays.after (h : c.Portrays past) (call : Call) :
    (c.after f call).Portrays (record f past call) := by
  rw [record]
  split
  · next refused =>
      cases call with
      | restart => cases refused
      | account delta tag live =>
          rw [PeakCounter.after, perform, h.account_refused refused]
          exact h
  · next accepted =>
      cases call with
      | restart => exact h.restart
      | account delta tag live =>
          rw [PeakCounter.after, perform, h.account_accepted accepted]
          exact h.add

theorem portrays_foldl (h : c.Portrays past) (calls : List Call) :
    (calls.foldl (PeakCounter.after f) c).Portrays (calls.foldl (record f) past) := by
  induction calls generalizing c past with
  | nil => exact h
  | cons call calls ih => exact ih (h.after call)

/-! ### Exact sums -/

variable {counts : ArenaTag → Bool}

theorem Past.InRange.older (within : InRange counts (call :: past)) : InRange counts past :=
  fun earlier suffix => within earlier (suffix.trans (List.suffix_cons call past))

/-- A total whose exact values fit a word is exact. -/
theorem Past.total_eq_sum (within : InRange counts past) :
    (total counts past : Int) = sum counts past := by
  induction past with
  | nil => rfl
  | cons call past ih =>
      have older := ih within.older
      have here := within (call :: past) (List.suffix_refl _)
      rw [sum] at here ⊢
      cases call with
      | restart => rw [total, older, Call.share, Int.zero_add]
      | account delta tag live =>
          rw [Call.share, ← older, Int.add_comm] at here
          rw [total, Trace.moved_eq here.1 here.2, older, Call.share, Int.add_comm]

theorem Past.accepted_of_inRange (within : InRange (fun _ => true) (call :: past)) :
    ¬ Refuses f past call := by
  intro refused
  cases call with
  | restart => exact refused
  | account delta tag live =>
      have here := (within _ (List.suffix_refl _)).1
      rw [sum, ← total_eq_sum within.older] at here
      exact absurd refused.2 (Int.not_lt.mpr (by rwa [Int.add_comm] at here))

theorem Past.accepted_of_release (past : Past) (call : Call) : ¬ Refuses .release past call := by
  intro refused
  cases call with
  | restart => exact refused
  | account delta tag live => cases refused.1

theorem Past.ofCalls_snoc (calls : List Call) (call : Call) :
    ofCalls f (calls ++ [call]) = record f (ofCalls f calls) call := by
  rw [ofCalls, List.foldl_append]
  rfl

/-- Where no call is refused, all are in the past. -/
theorem Past.ofCalls_eq_reverse {calls : List Call}
    (accepted : ∀ call past, call :: past <:+ calls.reverse → ¬ Refuses f past call) :
    ofCalls f calls = calls.reverse := by
  induction calls using List.reverseRecOn with
  | nil => rfl
  | append_singleton calls call ih =>
      rw [List.reverse_append, List.reverse_singleton, List.singleton_append] at accepted ⊢
      have older : ofCalls f calls = calls.reverse :=
        ih fun call' past suffix => accepted call' past (suffix.trans (List.suffix_cons _ _))
      rw [ofCalls_snoc, older, record, if_neg (accepted call _ (List.suffix_refl _))]

/-! ### Any calls -/

/-- What a counter is after some calls. -/
structure Exact (f : Flavour) (calls : List Call) (c : PeakCounter) : Prop where
  start_le : c.start ≤ c.peak
  current_le : c.current ≤ c.peak
  sinceStart : c.sinceStart.toNat = c.peak.toNat - c.start.toNat
  portrayed : c.Portrays (ofCalls f calls)
  /-- The next account is refused for want of bytes only, else it tells whether it reaches a peak. -/
  answers : ∀ delta tag live, (c.perform f (.account delta tag live)).map (·.1) =
    if Refuses f (ofCalls f calls) (.account delta tag live) then
      .error (.freedTooMuch delta c.current c.start c.peak)
    else .ok (some (reaches (.account delta tag live :: ofCalls f calls)))
  /-- Carried out field by field, an account that is refused leaves the counter as it was. -/
  inPlace : ∀ delta tag live,
    accountInPlace f delta tag live c = InPlace.settled c (c.account f delta tag live)
  /-- A total is exact as long as its exact sums fit a word; a refused call adds to no sum. -/
  current_eq : InRange (fun _ => true) (ofCalls f calls) →
    (c.current.toNat : Int) = sum (fun _ => true) (ofCalls f calls)
  node_eq : InRange (· == .node) (ofCalls f calls) →
    (c.node.toNat : Int) = sum (· == .node) (ofCalls f calls)
  resource_eq : InRange (· == .resource) (ofCalls f calls) →
    (c.resource.toNat : Int) = sum (· == .resource) (ofCalls f calls)
  /-- All calls take effect in a release build, and where their exact sums fit a word. -/
  complete : f = .release ∨ InRange (fun _ => true) calls.reverse → ofCalls f calls = calls.reverse

theorem Portrays.sinceStart_eq (h : c.Portrays past) :
    c.sinceStart.toNat = c.peak.toNat - c.start.toNat := by
  rw [sinceStart, if_pos h.sound.start_le, UInt64.toNat_sub_of_le _ _ h.sound.start_le]

theorem Portrays.answer_eq (h : c.Portrays past) (delta : Int64) (tag : ArenaTag)
    (live : Option UInt32) : (c.perform f (.account delta tag live)).map (·.1) =
      if Refuses f past (.account delta tag live) then
        .error (.freedTooMuch delta c.current c.start c.peak)
      else .ok (some (reaches (.account delta tag live :: past))) := by
  split
  · next refused =>
      rw [perform, h.account_refused refused]
      rfl
  · next accepted =>
      rw [perform, h.account_accepted accepted]
      rfl

/-- A new counter is exact after any calls, in either build. -/
theorem exact_after (f : Flavour) (calls : List Call) :
    Exact f calls (calls.foldl (PeakCounter.after f) zero) := by
  have h : (calls.foldl (PeakCounter.after f) zero).Portrays (ofCalls f calls) :=
    portrays_foldl portrays_zero calls
  refine ⟨h.sound.start_le, h.sound.current_le, h.sinceStart_eq, h, h.answer_eq, ?_, ?_, ?_, ?_, ?_⟩
  · exact fun delta tag live => accountInPlace_eq f h.sound.current_le delta tag live
  · intro within
    rw [h.current]
    exact total_eq_sum within
  · intro within
    rw [h.node]
    exact total_eq_sum within
  · intro within
    rw [h.resource]
    exact total_eq_sum within
  · intro whole
    refine ofCalls_eq_reverse fun call past suffix => ?_
    cases whole with
    | inl release => exact release ▸ accepted_of_release past call
    | inr within => exact accepted_of_inRange fun earlier older => within earlier (older.trans suffix)

/-- Frees are cut off at zero in a release build, where a debug build leaves the counter alone; the
peak falls back at the restart, and the samples stay. -/
example :
    let calls : List Call := [.account 10 .node (some 3), .account (-20) .node none, .restart,
      .account 4 .resource none]
    calls.foldl (after .debug) zero = ⟨14, 10, 14, 10, 4, 10, 4, 3⟩ ∧
      calls.foldl (after .release) zero = ⟨4, 0, 4, 0, 4, 0, 4, 3⟩ := by
  decide

end ArenaPeak.PeakCounter
