import ArenaPeak.Json.Codec
import ArenaPeak.Proofs.Listings
import ArenaPeak.Proofs.Operations

/-!
What reports show. The text report and the report for other programs show the same records in the
same order, namely those that reach the bound; the other lines of the text say no more than the
bound and the number of records. Sizes that are made for people to read change the cells of three
columns and the blanks between cells.
-/

namespace ArenaPeak

/-! ### Rows -/

namespace Row

def blanks (n : Nat) : String :=
  String.ofList (List.replicate n ' ')

/-- Cells with so many blanks after each. -/
def spaced : List String → List Nat → String
  | cell :: cells, gap :: gaps => cell ++ blanks gap ++ spaced cells gaps
  | _, _ => ""

theorem padTo_cell (stop : Nat) (line cell : String) :
    ∃ gap, 0 < gap ∧ padTo stop (line ++ cell ++ " ") = line ++ (cell ++ blanks gap) := by
  refine ⟨stop - (line ++ cell ++ " ").utf8ByteSize + 1, Nat.succ_pos _, ?_⟩
  rw [padTo, blanks, List.replicate_succ, String.ofList_cons]
  simp only [String.append_assoc]
  rfl

/-- Cells that are laid out behind a line leave the line as it is. -/
theorem foldl_padTo (cells : List (String × Nat)) (line : String) :
    ∃ gaps : List Nat, gaps.length = cells.length ∧ (∀ gap ∈ gaps, 0 < gap) ∧
      cells.foldl (fun line cell => padTo cell.2 (line ++ cell.1 ++ " ")) line =
        line ++ spaced (cells.map (·.1)) gaps := by
  induction cells generalizing line with
  | nil => exact ⟨[], rfl, by simp, String.append_empty.symm⟩
  | cons head cells ih =>
      obtain ⟨cell, stop⟩ := head
      obtain ⟨gap, pos, first⟩ := padTo_cell stop line cell
      obtain ⟨gaps, length, positive, rest⟩ := ih (line ++ (cell ++ blanks gap))
      refine ⟨gap :: gaps, congrArg Nat.succ length, List.forall_mem_cons.mpr ⟨pos, positive⟩, ?_⟩
      rw [List.foldl_cons, first, rest, String.append_assoc]
      rfl

/-- Laid out to stops, cells are never closer than a blank. -/
theorem layout_eq (cells : List (String × Nat)) :
    ∃ gaps : List Nat, gaps.length = cells.length ∧ (∀ gap ∈ gaps, 0 < gap) ∧
      layout cells = spaced (cells.map (·.1)) gaps := by
  obtain ⟨gaps, length, positive, eq⟩ := foldl_padTo cells ""
  exact ⟨gaps, length, positive, eq.trans String.empty_append⟩

end Row

namespace StatRecord

/-- The three cells of a row that show sizes, as numbers or for people to read. -/
def sizes (human : Bool) (r : StatRecord) : List String :=
  [r.total, r.nodeAtPeak, r.resourceAtPeak].map fun bytes =>
    if human then (Size.of bytes).text else toString bytes.toNat

/-- The cells after them. -/
def others (r : StatRecord) : List String :=
  [ toString r.liveNodesAtPeak.toNat, r.time.fixed, r.kind.name, toString r.recompilations.toNat ]

/-- What comes after the cells. -/
def label (r : StatRecord) : String :=
  r.threadCell ++ "  " ++ r.method.display ++ " \n"

/-- A text has the cells of a record with gaps of some width after each, and then its label. -/
def LaidOut (human : Bool) (r : StatRecord) (text : String) : Prop :=
  ∃ gaps : List Nat, gaps.length = 7 ∧ (∀ gap ∈ gaps, 0 < gap) ∧
    text = Row.spaced (r.sizes human ++ r.others) gaps ++ r.label

theorem laidOut_row (human : Bool) (r : StatRecord) : r.LaidOut human (r.row human) := by
  obtain ⟨gaps, length, positive, eq⟩ := Row.layout_eq ((r.cells human).zip Row.stops)
  refine ⟨gaps, length, positive, ?_⟩
  rw [row, eq]
  simp only [String.append_assoc, label]
  rfl

end StatRecord

/-! ### Lines -/

namespace ReportLine

/-- The record that a line is the row of. -/
def record? : ReportLine → Option StatRecord
  | .row r => some r
  | _ => none

/-- The last two characters of a text. -/
def lastTwo (s : String) : List Char :=
  (s.toList.reverse.take 2).reverse

theorem lastTwo_append (a : String) {b : String} (long : 2 ≤ b.toList.length) :
    lastTwo (a ++ b) = lastTwo b := by
  rw [lastTwo, lastTwo, String.toList_append, List.reverse_append,
    List.take_append_of_le_length (by simpa using long)]

/-- Rows end in a blank before the line break, and no other line does. -/
theorem lastTwo_text (human : Bool) (line : ReportLine) :
    lastTwo (line.text human) = [' ', '\n'] ↔ line.record?.isSome = true := by
  cases line with
  | row r =>
      refine iff_of_true ?_ rfl
      rw [text, StatRecord.row, lastTwo_append _ (by decide)]
      decide
  | cutoff minSize =>
      refine iff_of_false ?_ Bool.false_ne_true
      rw [text, lastTwo_append _ (by decide)]
      decide
  | count shown all =>
      refine iff_of_false ?_ Bool.false_ne_true
      rw [text, lastTwo_append _ (by decide)]
      decide
  | legend =>
      refine iff_of_false ?_ Bool.false_ne_true
      change lastTwo (_ ++ "  thread : compiler thread\n") ≠ _
      rw [lastTwo_append _ (by decide)]
      decide
  | title | unavailable | blank | header | notInitialized | noEntries =>
      refine iff_of_false ?_ Bool.false_ne_true
      rw [text]
      decide

theorem text_of_record?_none {line : ReportLine} (other : line.record? = none) :
    line.text true = line.text false := by
  cases line with
  | row r => cases other
  | _ => rfl

end ReportLine

namespace Service

/-- The records whose rows are in the text report. -/
def rows (s : Service) (order : Arrangement) (minSize : UInt64) : List StatRecord :=
  (s.reportLines order minSize).filterMap (·.record?)

/-- The two reports of a service with a table: what is printed, and what is given to other programs,
about the same records in the same order. -/
structure Shows (s : Service) (t : StatTable) (order : Arrangement) (minSize : UInt64) : Prop where
  rows : t.Lists order minSize (s.rows order minSize)
  text : ∀ human, s.report order human minSize =
    "Compilation memory statistics\n" ++
    "\n" ++
    "Legend:\n" ++
    "  total  : memory allocated via arenas while compiling\n" ++
    "  NA     : ...how much in node arenas (if c2)\n" ++
    "  RA     : ...how much in resource areas\n" ++
    "  #nodes : ...how many nodes (if c2)\n" ++
    "  time   : time of last compilation (sec)\n" ++
    "  type   : compiler type\n" ++
    "  #rc    : how often recompiled\n" ++
    "  thread : compiler thread\n" ++
    "\n" ++
    (if 0 < minSize then " (cutoff: " ++ toString minSize.toNat ++ " bytes)\n" else "") ++
    "\n" ++
    "total     NA        RA        #nodes  time    type  #rc thread              method\n" ++
    (if 0 < minSize then
      "(" ++ toString (s.rows order minSize).length ++ "/" ++ toString t.records.length ++ ")\n"
    else "") ++
    if s.rows order minSize = [] then "No entries.\n"
    else String.join ((s.rows order minSize).map (·.row human))
  json : s.jsonReport order minSize = .arr ((s.rows order minSize).map fun r => .obj
    [ ("kind", .str r.kind.name),
      ("live_nodes_at_peak", .int r.liveNodesAtPeak.toNat),
      ("method", .str (r.method.owner.text ++ "::" ++ r.method.name.text ++
        "(" ++ r.method.signature.text ++ ")")),
      ("node_at_peak", .int r.nodeAtPeak.toNat),
      ("recompilations", .int r.recompilations.toNat),
      ("resource_at_peak", .int r.resourceAtPeak.toNat),
      ("thread", match r.thread with
        | some thread => .int thread.number.toNat
        | none => .null),
      ("time", .float r.time.shortest),
      ("total", .int r.total.toNat) ])
  views : s.views order minSize = (s.rows order minSize).map fun r =>
    { method := r.method.owner.text ++ "::" ++ r.method.name.text ++
        "(" ++ r.method.signature.text ++ ")"
      total := r.total
      nodeAtPeak := r.nodeAtPeak
      resourceAtPeak := r.resourceAtPeak
      liveNodesAtPeak := r.liveNodesAtPeak
      time := r.time
      kind := r.kind
      recompilations := r.recompilations
      thread := r.thread }

variable {s : Service} {t : StatTable} {order : Arrangement} {minSize : UInt64}

theorem reportLines_off (off : s.enabled = false) (order : Arrangement) (minSize : UInt64) :
    s.reportLines order minSize = [.title, .unavailable] := by
  simp [reportLines, off]

theorem views_off (off : s.Off) (order : Arrangement) (minSize : UInt64) :
    s.views order minSize = [] := by
  rw [views, off.table]

theorem rows_off (off : s.Off) (order : Arrangement) (minSize : UInt64) :
    s.rows order minSize = [] := by
  rw [rows, reportLines_off off.enabled]
  rfl

/-- The lines of the text report between the title and the rows. -/
def preface (minSize : UInt64) (shown all : Nat) : List ReportLine :=
  [.blank, .legend, .blank] ++ (if 0 < minSize then [.cutoff minSize] else []) ++
    [.blank, .header] ++ if 0 < minSize then [.count shown all] else []

theorem reportLines_on (on : s.On t) (order : Arrangement) (minSize : UInt64) :
    s.reportLines order minSize =
      .title :: (preface minSize (t.listing order minSize).length t.size ++
        if (t.listing order minSize).isEmpty then [.noEntries]
        else (t.listing order minSize).map .row) := by
  simp [reportLines, preface, on.enabled, on.table]

theorem filterMap_preface (minSize : UInt64) (shown all : Nat) :
    (preface minSize shown all).filterMap (·.record?) = [] := by
  rw [preface]
  split <;> rfl

/-- Where the switch is on without a table, there are no rows either. -/
theorem rows_bare (enabled : s.enabled = true) (none : s.table = none) (order : Arrangement)
    (minSize : UInt64) : s.rows order minSize = [] := by
  by_cases bounded : 0 < minSize <;> simp [rows, reportLines, enabled, none, bounded,
    ReportLine.record?]

theorem rows_on (on : s.On t) (order : Arrangement) (minSize : UInt64) :
    s.rows order minSize = t.listing order minSize := by
  rw [rows, reportLines_on on, List.filterMap_cons_none rfl, List.filterMap_append,
    filterMap_preface, List.nil_append]
  cases t.listing order minSize with
  | nil => rfl
  | cons r rs => simp [ReportLine.record?, List.filterMap_map]

/-- What is printed before the rows, the title included. -/
theorem join_preface (human : Bool) (minSize : UInt64) (shown all : Nat) :
    String.join ((ReportLine.title :: preface minSize shown all).map (·.text human)) =
      "Compilation memory statistics\n" ++ "\n" ++ String.join StatRecord.legend ++ "\n" ++
      (if 0 < minSize then " (cutoff: " ++ toString minSize.toNat ++ " bytes)\n" else "") ++
      "\n" ++ StatRecord.header ++
      if 0 < minSize then "(" ++ toString shown ++ "/" ++ toString all ++ ")\n" else "" := by
  rw [preface]
  split <;>
    simp only [List.map_cons, List.map_nil, List.cons_append, List.nil_append, List.append_nil,
      ReportLine.text, String.join_cons, String.join_nil, String.append_assoc,
      String.append_empty]

theorem report_on (on : s.On t) (order : Arrangement) (human : Bool) (minSize : UInt64) :
    s.report order human minSize =
      String.join ((ReportLine.title ::
        preface minSize (t.listing order minSize).length t.size).map (·.text human)) ++
      if t.listing order minSize = [] then "No entries.\n"
      else String.join ((t.listing order minSize).map (·.row human)) := by
  rw [report, reportLines_on on, ← List.cons_append, List.map_append, String.join_append]
  cases t.listing order minSize with
  | nil => rfl
  | cons r rs =>
      rw [if_neg (by simp), if_neg (by simp), List.map_map]
      rfl

theorem shows_of_on (on : s.On t) (order : Arrangement) (minSize : UInt64) :
    s.Shows t order minSize := by
  have rows := rows_on on order minSize
  have views : s.views order minSize = (t.listing order minSize).map (·.view) := by
    rw [Service.views, on.table]
  refine ⟨?_, ?_, ?_, ?_⟩
  · rw [rows]
    exact t.lists_listing order minSize
  · intro human
    rw [report_on on, join_preface, rows]
    rfl
  · rw [jsonReport, views, rows, Json.ofList, List.map_map]
    refine congrArg Json.arr (List.map_congr_left fun r _ => ?_)
    cases thread : r.thread <;>
      simp [RecordView.toJson, StatRecord.view, thread, Json.ofOption, Json.ofWord,
        Json.ofHalfWord, CompilerKind.toJson, ThreadId.toJson, Method.display]
  · rw [views, rows]
    rfl

end Service

/-! ### Tables of distinct methods -/

namespace StatTable

/-- No two records are of one method. -/
def Distinct (t : StatTable) : Prop :=
  t.records.Pairwise fun a b => a.method.same b.method = false

theorem distinct_upsert {t : StatTable} (distinct : t.Distinct) (m : Method) (c : Commit) :
    (t.upsert m c).Distinct := by
  obtain ⟨rs⟩ := t
  simp only [Distinct, upsert] at distinct ⊢
  induction rs with
  | nil => exact List.pairwise_singleton _ _
  | cons r rs ih =>
      rw [List.pairwise_cons] at distinct
      simp only [upsertIn]
      split
      · exact List.pairwise_cons.mpr distinct
      · next other =>
          refine List.pairwise_cons.mpr ⟨fun r' mem => ?_, ih distinct.2⟩
          cases method_of_mem_upsertIn mem with
          | inl eq =>
              rw [eq]
              exact Bool.eq_false_iff.mpr other
          | inr old =>
              obtain ⟨r'', mem, eq⟩ := old
              rw [eq]
              exact distinct.1 r'' mem

end StatTable

namespace Session

/-- The reports of a session, and how the two of them, different bounds and the flag for people
relate. -/
structure Reports (f : Flavour) (s : Session) : Prop where
  text : ∀ order human minSize, (s.step f (.report order human minSize none)).1 =
    .ok (.text (s.service.report order human minSize))
  views : ∀ order minSize, (s.step f (.views order minSize)).1 =
    .ok (.views (s.service.views order minSize))
  off : s.service.enabled = false → ∀ order minSize,
    (∀ human, s.service.report order human minSize =
      "Compilation memory statistics\n(unavailable)\n") ∧
    s.service.views order minSize = [] ∧ s.service.jsonReport order minSize = .arr []
  on : s.service.enabled = true → ∃ t, s.service.table = some t ∧ t.Distinct ∧
    ∀ order minSize, s.service.Shows t order minSize ∧
      .notInitialized ∉ s.service.reportLines order minSize
  /-- A higher bound cuts the rows off earlier. -/
  bounds : ∀ order minSize minSize', minSize ≤ minSize' →
    s.service.rows order minSize' <+: s.service.rows order minSize
  /-- Rows can be told from all other lines. -/
  rows : ∀ human, ∀ line : ReportLine, ReportLine.lastTwo (line.text human) = [' ', '\n'] ↔
    line.record?.isSome = true
  /-- The flag for people changes the sizes in the rows and the gaps between their cells. -/
  flag : ∀ line : ReportLine, (line.record? = none → line.text true = line.text false) ∧
    ∀ r, line.record? = some r → ∀ human, r.LaidOut human (line.text human)

/-- Whatever has been done with a service, its reports agree and are exact. -/
theorem reports_reached (f : Flavour) (inline : InlineOutput) (ops : List Operation) :
    ((new inline).reached f ops).Reports f := by
  have distinct := tableHas_reached (f := f) (P := StatTable.Distinct) List.Pairwise.nil
    (fun t m c before => t.distinct_upsert before m c) inline ops
  have switched := switched_reached f inline ops
  generalize (new inline).reached f ops = s at distinct switched
  refine ⟨?_, ?_, ?_, ?_, ?_, ReportLine.lastTwo_text, ?_⟩
  · intro order human minSize
    rw [step_report]
    rfl
  · intro order minSize
    rw [step_views]
  · intro off order minSize
    have none := Service.views_off (switched.off off) order minSize
    refine ⟨?_, none, ?_⟩
    · intro human
      rw [Service.report, Service.reportLines_off off]
      rfl
    · rw [Service.jsonReport, none]
      rfl
  · intro enabled
    obtain ⟨t, on⟩ := switched.exists_on enabled
    refine ⟨t, on.table, distinct t on.table, fun order minSize => ⟨Service.shows_of_on on _ _, ?_⟩⟩
    rw [Service.reportLines_on on, Service.preface]
    split <;> split <;> simp
  · intro order minSize minSize' higher
    cases switched.cases with
    | inl off =>
        rw [Service.rows_off off]
        exact List.nil_prefix
    | inr on =>
        obtain ⟨t, on⟩ := on
        rw [Service.rows_on on, Service.rows_on on]
        exact t.listing_prefix order higher
  · intro line
    refine ⟨ReportLine.text_of_record?_none, ?_⟩
    intro r row human
    cases line with
    | row r' =>
        cases row
        exact r.laidOut_row human
    | _ => cases row

end Session

end ArenaPeak
