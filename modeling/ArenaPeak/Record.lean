import ArenaPeak.Counter
import ArenaPeak.Method
import ArenaPeak.Seconds

/-!
The record of a compiled method: what its last commit brought, and how many commits there were.
A commit overwrites; nothing is merged.
-/

namespace ArenaPeak

structure Commit where
  kind : CompilerKind
  peak : PeakSnapshot
  /-- When the compilation ended, counted from the start of the service. -/
  time : Seconds
  thread : ThreadId
  deriving DecidableEq

structure StatRecord where
  method : Method
  kind : CompilerKind
  time : Seconds
  recompilations : UInt32
  thread : Option ThreadId
  total : UInt64
  nodeAtPeak : UInt64
  resourceAtPeak : UInt64
  liveNodesAtPeak : UInt32
  deriving DecidableEq

namespace StatRecord

def fresh (m : Method) : StatRecord where
  method := m
  kind := .c1
  time := .zero
  recompilations := 0
  thread := none
  total := 0
  nodeAtPeak := 0
  resourceAtPeak := 0
  liveNodesAtPeak := 0

def apply (r : StatRecord) (c : Commit) : StatRecord where
  method := r.method
  kind := c.kind
  time := c.time
  recompilations := r.recompilations + 1
  thread := some c.thread
  total := c.peak.total
  nodeAtPeak := c.peak.nodeBytes
  resourceAtPeak := c.peak.resourceBytes
  liveNodesAtPeak := c.peak.liveNodes

end StatRecord

end ArenaPeak
