import ArenaPeak.Record.Row
import ArenaPeak.Service

/-!
Reports on the records of a service: as text, and as a list of views that other programs read.
Both show the same records in the same order, largest total first. Records of equal total stand in
the order in which the table gives them, which is up to the table.
-/

namespace ArenaPeak

/-- A copy of a record with the method as text. -/
structure RecordView where
  method : String
  total : UInt64
  nodeAtPeak : UInt64
  resourceAtPeak : UInt64
  liveNodesAtPeak : UInt32
  time : Seconds
  kind : CompilerKind
  recompilations : UInt32
  thread : Option ThreadId
  deriving DecidableEq

namespace StatRecord

def view (r : StatRecord) : RecordView where
  method := r.method.display
  total := r.total
  nodeAtPeak := r.nodeAtPeak
  resourceAtPeak := r.resourceAtPeak
  liveNodesAtPeak := r.liveNodesAtPeak
  time := r.time
  kind := r.kind
  recompilations := r.recompilations
  thread := r.thread

end StatRecord

/-- What a line of a text report says. -/
inductive ReportLine where
  | title
  | unavailable
  | blank
  | legend
  | cutoff (minSize : UInt64)
  | header
  | notInitialized
  /-- How many records are shown, and how many there are. -/
  | count (shown all : Nat)
  | noEntries
  | row (r : StatRecord)
  deriving DecidableEq

def ReportLine.text (human : Bool) : ReportLine → String
  | .title => "Compilation memory statistics\n"
  | .unavailable => "(unavailable)\n"
  | .blank => "\n"
  | .legend => String.join StatRecord.legend
  | .cutoff minSize => " (cutoff: " ++ toString minSize.toNat ++ " bytes)\n"
  | .header => StatRecord.header
  | .notInitialized => "Not initialized.\n"
  | .count shown all => "(" ++ toString shown ++ "/" ++ toString all ++ ")\n"
  | .noEntries => "No entries.\n"
  | .row r => r.row human

/-- The order in which a table gives its records: any rearrangement, by the records there are. -/
structure Arrangement where
  arrange : List StatRecord → List StatRecord
  perm : ∀ rs, (arrange rs).Perm rs

/-- The order in which the methods were first committed. -/
def Arrangement.asCommitted : Arrangement :=
  ⟨id, .refl⟩

namespace StatTable

def arranged (t : StatTable) (order : Arrangement) : StatTable :=
  ⟨order.arrange t.records⟩

/-- The records of a report: those with at least so many bytes, largest total first. -/
def listing (t : StatTable) (order : Arrangement) (minSize : UInt64) : List StatRecord :=
  sortBySize ((t.arranged order).snapshot minSize)

end StatTable

namespace Service

/-- The audit of the snapshot that a report is made of. -/
def audit (f : Flavour) (s : Service) (minSize : UInt64) : Except Violation Unit :=
  match s.table with
  | some t => t.audit f minSize
  | none => .ok ()

theorem audit_eq (f : Flavour) (s : Service) (minSize : UInt64) : s.audit f minSize = .ok () := by
  rw [audit]
  cases s.table with
  | none => rfl
  | some t => exact t.audit_eq f minSize

def views (s : Service) (order : Arrangement) (minSize : UInt64) : List RecordView :=
  match s.table with
  | some t => (t.listing order minSize).map (·.view)
  | none => []

def reportLines (s : Service) (order : Arrangement) (minSize : UInt64) : List ReportLine :=
  .title ::
    if !s.enabled then [.unavailable]
    else
      [.blank, .legend, .blank] ++ (if 0 < minSize then [.cutoff minSize] else []) ++
        [.blank, .header] ++
        match s.table with
        | none => [.notInitialized]
        | some t =>
            let records := t.listing order minSize
            (if 0 < minSize then [.count records.length t.size] else []) ++
              if records.isEmpty then [.noEntries] else records.map .row

def report (s : Service) (order : Arrangement) (human : Bool) (minSize : UInt64) : String :=
  String.join ((s.reportLines order minSize).map (·.text human))

/-- The text report on an output that takes at most so many bytes; none if it runs full. -/
def reportWithin (s : Service) (order : Arrangement) (human : Bool) (minSize : UInt64)
    (limit : Option Nat) : Option String :=
  let text := s.report order human minSize
  if limit.any (· < text.utf8ByteSize) then none else some text

end Service

end ArenaPeak
