/-!
Contracts and the two flavours of a build. A debug build stops at a violated contract before the
step has any effect; a release build does not look and carries on. Two violations stop both: a
second enabling, and the crash of a compilation.
-/

namespace ArenaPeak

inductive Flavour where
  | debug
  | release
  deriving DecidableEq

/-- The contracts that a caller can violate, with the numbers shown when it happens. -/
inductive Violation where
  | freedTooMuch (delta : Int64) (current start peak : UInt64)
  | peakWithoutGrowth (current start peak : UInt64)
  | notEnabled
  | endWithoutTask
  | endWithoutTracking
  | incompleteSnapshot
  | enabledTwice
  | crashed
  deriving DecidableEq

namespace Violation

def message : Violation → String
  | .freedTooMuch delta current start peak =>
      "Negative overflow (d=" ++ toString delta.toInt ++ " " ++ toString current.toNat ++ " " ++
        toString start.toNat ++ " " ++ toString peak.toNat ++ ")"
  | .peakWithoutGrowth current start peak =>
      "Sanity (" ++ toString current.toNat ++ " " ++ toString start.toNat ++ " " ++
        toString peak.toNat ++ ")"
  | .notEnabled => "Not enabled?"
  | .endWithoutTask => "compilation ended without a task"
  | .endWithoutTracking => "Only call if memstat is enabled"
  | .incompleteSnapshot => "assertion failed: min_size > 0 || flat.len() == self.entries.len()"
  | .enabledTwice => "compilation memory statistic enabled twice"
  | .crashed => "compiler crashed"

end Violation

namespace Flavour

def checks : Flavour → Bool
  | .debug => true
  | .release => false

/-- Asserts a contract, which only a debug build looks at. -/
def assert (f : Flavour) (holds : Bool) (v : Violation) : Except Violation Unit :=
  if f.checks && !holds then .error v else .ok ()

theorem assert_release (holds : Bool) (v : Violation) : release.assert holds v = .ok () := rfl

theorem assert_true (f : Flavour) (v : Violation) : f.assert true v = .ok () := by
  simp [assert]

theorem assert_debug_false (v : Violation) : debug.assert false v = .error v := rfl

end Flavour

end ArenaPeak
