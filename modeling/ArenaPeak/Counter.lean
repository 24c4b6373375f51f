import ArenaPeak.Config
import ArenaPeak.Flavour
import ArenaPeak.Tag

/-!
The peak counter of one compiler thread. It follows the bytes allocated in arenas and never goes
back to zero, because a thread is used again while arenas of earlier work may still be alive;
starting an episode only moves the baseline. Whenever the bytes reach a new peak, the totals of
the node and resource arenas are sampled, and the live nodes if there is a source for them.
-/

namespace ArenaPeak

/-- The values an episode leaves behind. -/
structure PeakSnapshot where
  total : UInt64
  nodeBytes : UInt64
  resourceBytes : UInt64
  liveNodes : UInt32
  deriving DecidableEq

/-- The word nearest to an integer. -/
def clampWord (n : Int) : UInt64 :=
  if n < 0 then 0 else if n ≤ maxWord then UInt64.ofNat n.toNat else UInt64.ofNat maxWord

/-- A count moved by a signed amount, held at zero and at the largest word. -/
def shift (count : UInt64) (delta : Int64) : UInt64 :=
  clampWord (count.toNat + delta.toInt)

theorem clampWord_toNat (n : Int) : (clampWord n).toNat = min maxWord n.toNat := by
  have small : maxWord < 2 ^ 64 := by decide
  rw [clampWord]
  split
  · simp; omega
  · split
    · rw [UInt64.toNat_ofNat_of_lt' (by simp [UInt64.size]; omega)]
      omega
    · rw [UInt64.toNat_ofNat_of_lt' (by simp [UInt64.size]; omega)]
      omega

theorem shift_toNat (count : UInt64) (delta : Int64) :
    (shift count delta).toNat = min maxWord (count.toNat + delta.toInt).toNat :=
  clampWord_toNat _

structure PeakCounter where
  current : UInt64
  start : UInt64
  peak : UInt64
  node : UInt64
  resource : UInt64
  nodeAtPeak : UInt64
  resourceAtPeak : UInt64
  liveNodesAtPeak : UInt32
  deriving DecidableEq

namespace PeakCounter

def zero : PeakCounter :=
  ⟨0, 0, 0, 0, 0, 0, 0, 0⟩

/-- Begins an episode: baseline and peak move to where the counter stands. -/
def restart (c : PeakCounter) : PeakCounter :=
  { c with start := c.current, peak := c.current }

/-- The counter moved by an allocation or a free, before the peak is looked at. -/
def move (c : PeakCounter) (delta : Int64) (tag : ArenaTag) : PeakCounter :=
  let c := { c with current := shift c.current delta }
  match tag with
  | .node => { c with node := shift c.node delta }
  | .resource => { c with resource := shift c.resource delta }
  | .handle | .other => c

/-- The counter with the peak where it stands, and everything sampled there. -/
def sample (c : PeakCounter) (live : Option UInt32) : PeakCounter :=
  { c with
    peak := c.current
    nodeAtPeak := c.node
    resourceAtPeak := c.resource
    liveNodesAtPeak := live.getD c.liveNodesAtPeak }

/-- Accounts an allocation (a positive amount) or a free (a negative one), and says whether that
reached a new peak. More freed than allocated is a violation. -/
def account (f : Flavour) (c : PeakCounter) (delta : Int64) (tag : ArenaTag)
    (live : Option UInt32) : Except Violation (Bool × PeakCounter) := do
  f.assert (decide (0 ≤ c.current.toNat + delta.toInt))
    (.freedTooMuch delta c.current c.start c.peak)
  let c := c.move delta tag
  if c.current ≤ c.peak then
    return (false, c)
  else
    f.assert (decide (0 < delta)) (.peakWithoutGrowth c.current c.start c.peak)
    return (true, c.sample live)

def sinceStart (c : PeakCounter) : UInt64 :=
  if c.start ≤ c.peak then c.peak - c.start else 0

def snapshot (c : PeakCounter) : PeakSnapshot where
  total := c.sinceStart
  nodeBytes := c.nodeAtPeak
  resourceBytes := c.resourceAtPeak
  liveNodes := c.liveNodesAtPeak

/-- The peak and its parts; a debug build adds baseline, peak and current bytes. -/
def display (f : Flavour) (c : PeakCounter) : String :=
  toString c.sinceStart.toNat ++ " [na " ++ toString c.nodeAtPeak.toNat ++ " ra " ++
    toString c.resourceAtPeak.toNat ++ "]" ++
    match f with
    | .debug =>
        " (" ++ toString c.start.toNat ++ "->" ++ toString c.peak.toNat ++ "->" ++
          toString c.current.toNat ++ ")"
    | .release => ""

inductive Call where
  | restart
  | account (delta : Int64) (tag : ArenaTag) (live : Option UInt32)

/-- The answer to a call and the counter after it. Restarting has no answer. -/
def perform (f : Flavour) (c : PeakCounter) : Call → Except Violation (Option Bool × PeakCounter)
  | .restart => .ok (none, c.restart)
  | .account delta tag live => do
      let (reached, c) ← c.account f delta tag live
      return (some reached, c)

/-- The counter after a call; one that fails leaves it as it was. -/
def after (f : Flavour) (c : PeakCounter) (call : Call) : PeakCounter :=
  match c.perform f call with
  | .ok (_, c) => c
  | .error _ => c

end PeakCounter

end ArenaPeak
