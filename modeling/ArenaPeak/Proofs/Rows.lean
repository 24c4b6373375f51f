import ArenaPeak.Proofs.Cuts
import ArenaPeak.Proofs.Numerals
import ArenaPeak.Proofs.Reports

/-!
Rows read back. Whatever the width of its values, a row comes apart at runs of blanks into its cells
and the thread, and what follows two more blanks is the method; so nothing that a row shows is lost.
Each cell begins at its stop if what stands before it leaves room, and else right behind it.
-/

namespace ArenaPeak

namespace Row

/-! ### Cells -/

/-- The text of one cell: there is something and no blank in it. -/
structure Solid (s : String) : Prop where
  there : s.toList ≠ []
  noBlank : ' ' ∉ s.toList

theorem Solid.append {a b : String} (solid : Solid a) (noBlank : ' ' ∉ b.toList) :
    Solid (a ++ b) where
  there := by simp [solid.there]
  noBlank := by simp [solid.noBlank, noBlank]

/-- After a solid text, or a text that begins with one, no blank comes first. -/
theorem Solid.head {s : String} (solid : Solid s) (rest : List Char) :
    (s.toList ++ rest).head? ≠ some ' ' := by
  obtain ⟨c, cs, chars⟩ := List.exists_cons_of_ne_nil solid.there
  have noBlank := solid.noBlank
  rw [chars] at noBlank ⊢
  intro blank
  cases blank
  exact noBlank List.mem_cons_self

theorem solid_toString (n : Nat) : Solid (toString n) where
  there := by simp
  noBlank := by
    rw [Nat.toString_eq_repr, Nat.toList_repr]
    exact fun mem =>
      absurd (Nat.isDigit_of_mem_toDigits (b := 10) (by omega) (by omega) mem) (by decide)

theorem solid_hexWord (w : UInt64) : Solid (hexWord w) := by
  rw [Text.hexWord_eq]
  refine Solid.append ⟨by decide, by decide⟩ ?_
  rw [String.toList_ofList]
  exact Text.not_blank_of_hexadecimal? (Text.hexadecimal?_wordDigits w)

end Row

theorem CompilerKind.solid_name (k : CompilerKind) : Row.Solid k.name := by
  cases k <;> exact ⟨by decide, by decide⟩

theorem Size.solid_text (s : Size) : Row.Solid s.text := by
  refine (Row.solid_toString s.amount).append ?_
  cases s.unit <;> decide

theorem Seconds.solid_fixed (s : Seconds) : Row.Solid s.fixed := by
  have thousandths (n : Nat) : Row.Solid (withThousandths n) := by
    rw [withThousandths]
    refine (((Row.solid_toString _).append (by decide)).append ?_).append
      (Row.solid_toString _).noBlank
    split
    · decide
    · split <;> decide
  rw [fixed]
  dsimp only
  split
  · exact Row.Solid.append ⟨by decide, by decide⟩ (thousandths _).noBlank
  · rw [String.empty_append]
    exact thousandths _

namespace StatRecord

theorem solid_sizeCell (human : Bool) (bytes : UInt64) : Row.Solid (sizeCell human bytes) := by
  rw [sizeCell]
  split
  · exact (Size.of bytes).solid_text
  · exact Row.solid_toString _

theorem solid_cells (human : Bool) (r : StatRecord) : ∀ cell ∈ r.cells human, Row.Solid cell := by
  simp only [cells, List.forall_mem_cons]
  refine ⟨solid_sizeCell human _, solid_sizeCell human _, solid_sizeCell human _,
    Row.solid_toString _, r.time.solid_fixed, r.kind.solid_name, Row.solid_toString _, ?_⟩
  simp

theorem solid_threadCell (r : StatRecord) : Row.Solid r.threadCell :=
  Row.solid_hexWord _

end StatRecord

namespace Row

/-! ### Reading -/

/-- The first cell of a text, and what stands behind the blanks that follow it. -/
def cutCell (cs : List Char) : List Char × List Char :=
  (cs.takeWhile (· != ' '), (cs.dropWhile (· != ' ')).dropWhile (· == ' '))

def cutCells : Nat → List Char → List (List Char) × List Char
  | 0, cs => ([], cs)
  | n + 1, cs =>
      let (cell, cs) := cutCell cs
      let (cells, cs) := cutCells n cs
      (cell :: cells, cs)

/-- What stands between two blanks and a last blank with the end of the line. -/
def cutMethod? : List Char → Option (List Char)
  | ' ' :: ' ' :: cs =>
      match cs.reverse with
      | '\n' :: ' ' :: method => some method.reverse
      | _ => none
  | _ => none

/-- A row taken apart. -/
structure Parts where
  cells : List String
  thread : String
  method : String
  deriving DecidableEq

/-- Takes a row apart: seven cells up to runs of blanks, the thread up to the next blank, and the
method behind two blanks. -/
def read? (row : String) : Option Parts :=
  let (cells, cs) := cutCells 7 row.toList
  (cutMethod? (cs.dropWhile (· != ' '))).map fun method =>
    ⟨cells.map String.ofList, String.ofList (cs.takeWhile (· != ' ')), String.ofList method⟩

variable {cell rest : List Char}

theorem ne_blank (noBlank : ' ' ∉ cell) (c : Char) (mem : c ∈ cell) : (c != ' ') = true := by
  rw [bne_iff_ne]
  rintro rfl
  exact noBlank mem

theorem takeWhile_cell (noBlank : ' ' ∉ cell) (rest : List Char) :
    (cell ++ ' ' :: rest).takeWhile (· != ' ') = cell := by
  rw [List.takeWhile_append_of_pos (ne_blank noBlank)]
  simp

theorem dropWhile_cell (noBlank : ' ' ∉ cell) (rest : List Char) :
    (cell ++ ' ' :: rest).dropWhile (· != ' ') = ' ' :: rest := by
  rw [List.dropWhile_append_of_pos (ne_blank noBlank)]
  simp

theorem cutCell_append (noBlank : ' ' ∉ cell) {gap : Nat} (pos : 0 < gap)
    (next : rest.head? ≠ some ' ') :
    cutCell (cell ++ (List.replicate gap ' ' ++ rest)) = (cell, rest) := by
  obtain ⟨gap, rfl⟩ := Nat.exists_eq_add_of_lt pos
  have behind : (List.replicate (0 + gap + 1) ' ' ++ rest).dropWhile (· == ' ') = rest := by
    refine Text.dropWhile_append_of_head (by simp) ?_
    intro c first
    rw [first] at next
    simpa using next
  rw [List.replicate_succ, List.cons_append] at behind ⊢
  rw [cutCell, takeWhile_cell noBlank, dropWhile_cell noBlank, behind]

theorem cutCells_spaced {cells : List String} {gaps : List Nat}
    (solid : ∀ cell ∈ cells, Solid cell) (length : gaps.length = cells.length)
    (positive : ∀ gap ∈ gaps, 0 < gap) (next : rest.head? ≠ some ' ') :
    cutCells cells.length ((spaced cells gaps).toList ++ rest) =
      (cells.map String.toList, rest) := by
  induction cells generalizing gaps with
  | nil => cases gaps <;> rfl
  | cons cell cells ih =>
      obtain _ | ⟨gap, gaps⟩ := gaps
      · cases length
      rw [List.forall_mem_cons] at solid positive
      rw [List.length_cons, List.length_cons, Nat.add_right_cancel_iff] at length
      have later : ((spaced cells gaps).toList ++ rest).head? ≠ some ' ' := by
        cases cells with
        | nil => cases gaps <;> exact next
        | cons cell' cells =>
            obtain _ | ⟨gap', gaps⟩ := gaps
            · cases length
            rw [spaced, String.append_assoc, String.toList_append, List.append_assoc]
            exact (solid.2 cell' List.mem_cons_self).head _
      have first := cutCell_append solid.1.noBlank positive.1 later
      rw [spaced, String.toList_append, String.toList_append, blanks, String.toList_ofList,
        List.append_assoc, List.append_assoc, List.length_cons, cutCells, first]
      dsimp only
      rw [ih solid.2 length positive.2, List.map_cons]

theorem cutMethod?_append (method : List Char) :
    cutMethod? (' ' :: ' ' :: (method ++ [' ', '\n'])) = some method := by
  simp [cutMethod?]

end Row

theorem StatRecord.read?_row (human : Bool) (r : StatRecord) :
    Row.read? (r.row human) = some ⟨r.cells human, r.threadCell, r.method.display⟩ := by
  obtain ⟨gaps, length, positive, text⟩ := r.laidOut_row human
  have behind : r.label.toList =
      r.threadCell.toList ++ ' ' :: ' ' :: (r.method.display.toList ++ [' ', '\n']) := by
    simp [label]
  have next : r.label.toList.head? ≠ some ' ' := by
    rw [behind]
    exact r.solid_threadCell.head _
  have cut : Row.cutCells 7 (r.row human).toList =
      ((r.cells human).map String.toList, r.label.toList) := by
    rw [text, String.toList_append]
    exact Row.cutCells_spaced (r.solid_cells human) length positive next
  rw [Row.read?, cut]
  dsimp only
  rw [behind, Row.dropWhile_cell r.solid_threadCell.noBlank,
    Row.takeWhile_cell r.solid_threadCell.noBlank, Row.cutMethod?_append, Option.map_some,
    String.ofList_toList, String.ofList_toList, List.map_map]
  simp

/-! ### Values -/

/-- What a row shows of a record. -/
structure RowValues where
  total : Nat
  nodeAtPeak : Nat
  resourceAtPeak : Nat
  liveNodesAtPeak : Nat
  time : String
  kind : String
  recompilations : Nat
  /-- Zero stands for no thread. -/
  thread : Nat
  method : String
  deriving DecidableEq

/-- Reads the number of a thread from its sixteen digits. -/
def Row.thread? (cell : String) : Option Nat :=
  match cell.toList with
  | '0' :: 'x' :: digits => if digits.length = 16 then Text.hexadecimal? digits else none
  | _ => none

theorem Row.thread?_hexWord (w : UInt64) : Row.thread? (Row.hexWord w) = some w.toNat := by
  have chars : (Row.hexWord w).toList = '0' :: 'x' :: Text.wordDigits w := by
    simp [Text.hexWord_eq]
  rw [Row.thread?, chars]
  simp [Text.length_wordDigits, Text.hexadecimal?_wordDigits]

/-- Reads the values of a row whose sizes are plain numbers. -/
def RowValues.ofRow? (row : String) : Option RowValues := do
  let parts ← Row.read? row
  match parts.cells with
  | [total, node, resource, live, time, kind, recompilations] =>
      return {
        total := ← Text.decimal? total
        nodeAtPeak := ← Text.decimal? node
        resourceAtPeak := ← Text.decimal? resource
        liveNodesAtPeak := ← Text.decimal? live
        time
        kind
        recompilations := ← Text.decimal? recompilations
        thread := ← Row.thread? parts.thread
        method := parts.method }
  | _ => none

namespace StatRecord

def shown (r : StatRecord) : RowValues where
  total := r.total.toNat
  nodeAtPeak := r.nodeAtPeak.toNat
  resourceAtPeak := r.resourceAtPeak.toNat
  liveNodesAtPeak := r.liveNodesAtPeak.toNat
  time := r.time.fixed
  kind := r.kind.name
  recompilations := r.recompilations.toNat
  thread := (r.thread.elim 0 (·.number)).toNat
  method := r.method.display

theorem threadCell_eq (r : StatRecord) :
    r.threadCell = Row.hexWord (r.thread.elim 0 (·.number)) := by
  rw [threadCell]
  cases r.thread <;> rfl

theorem cells_plain (r : StatRecord) :
    r.cells false = [toString r.shown.total, toString r.shown.nodeAtPeak,
      toString r.shown.resourceAtPeak, toString r.shown.liveNodesAtPeak, r.shown.time,
      r.shown.kind, toString r.shown.recompilations] :=
  rfl

theorem ofRow?_row (r : StatRecord) : RowValues.ofRow? (r.row false) = some r.shown := by
  rw [RowValues.ofRow?, read?_row, cells_plain, threadCell_eq]
  simp only [Option.bind_eq_bind, Option.bind_some, Text.decimal?_toString, Row.thread?_hexWord]
  rfl

/-- A plain row is made of nothing but the values it shows. -/
theorem row_congr {r r' : StatRecord} (same : r.shown = r'.shown) : r.row false = r'.row false := by
  have threads : r.threadCell = r'.threadCell := by
    rw [threadCell_eq, threadCell_eq, UInt64.toNat_inj.mp (congrArg RowValues.thread same)]
  have methods : r.method.display = r'.method.display := congrArg RowValues.method same
  rw [row, row, cells_plain, cells_plain, same, threads, methods]

end StatRecord

/-! ### Offsets -/

namespace Row

/-- So many bytes come before a text in a line. -/
def StandsAt (line text : String) (offset : Nat) : Prop :=
  ∃ before after, line = before ++ text ++ after ∧ before.utf8ByteSize = offset

/-- The cells of a line from an offset on, with the stop of the next one for each: behind a cell
there is a blank, and the next one begins at its stop if the text up to there is not longer than
that, and else right behind the blank. -/
def Aligned (line : String) : Nat → List (String × Nat) → String → Prop
  | offset, [], last => StandsAt line last offset
  | offset, (cell, stop) :: cells, last =>
      StandsAt line (cell ++ " ") offset ∧
        let taken := offset + cell.utf8ByteSize + 1
        Aligned line (if taken ≤ stop then stop else taken) cells last

theorem size_blanks (n : Nat) : (blanks n).utf8ByteSize = n := by
  induction n with
  | zero => rfl
  | succ n ih =>
      rw [blanks, List.replicate_succ, String.ofList_cons, String.utf8ByteSize_append]
      rw [blanks] at ih
      rw [ih, String.utf8ByteSize_singleton]
      exact Nat.add_comm 1 n

theorem size_padTo (stop : Nat) (line : String) :
    (padTo stop line).utf8ByteSize =
      if line.utf8ByteSize ≤ stop then stop else line.utf8ByteSize := by
  rw [padTo, String.utf8ByteSize_append]
  change _ + (blanks _).utf8ByteSize = _
  rw [size_blanks]
  split <;> omega

theorem aligned_layout (cells : List (String × Nat)) (line last after : String) :
    Aligned (cells.foldl (fun line cell => padTo cell.2 (line ++ cell.1 ++ " ")) line ++
      last ++ after) line.utf8ByteSize cells last := by
  induction cells generalizing line with
  | nil => exact ⟨line, after, rfl, rfl⟩
  | cons cell cells ih =>
      obtain ⟨cell, stop⟩ := cell
      constructor
      · obtain ⟨gaps, -, -, rest⟩ := foldl_padTo cells (padTo stop (line ++ cell ++ " "))
        refine ⟨line, blanks (stop - (line ++ cell ++ " ").utf8ByteSize) ++
          spaced (cells.map (·.1)) gaps ++ last ++ after, ?_, rfl⟩
        rw [List.foldl_cons, rest, padTo, blanks]
        simp only [String.append_assoc]
      · have offset : (padTo stop (line ++ cell ++ " ")).utf8ByteSize = _ := size_padTo stop _
        have blank : (" " : String).utf8ByteSize = 1 := rfl
        rw [String.utf8ByteSize_append, String.utf8ByteSize_append, blank] at offset
        dsimp only
        rw [← offset]
        exact ih (padTo stop (line ++ cell ++ " "))

end Row

namespace StatRecord

theorem aligned_row (human : Bool) (r : StatRecord) :
    Row.Aligned (r.row human) 0 ((r.cells human).zip [10, 20, 30, 38, 46, 52, 56])
      r.threadCell := by
  have aligned := Row.aligned_layout ((r.cells human).zip Row.stops) "" r.threadCell
    ("  " ++ r.method.display ++ " \n")
  have text : r.row human = Row.layout ((r.cells human).zip Row.stops) ++ r.threadCell ++
      ("  " ++ r.method.display ++ " \n") := by
    rw [row]
    simp only [String.append_assoc]
  rw [text]
  exact aligned

/-- A row comes apart into its cells, the thread and the method; a plain one shows its values in
full, and of any row the offsets of the cells are known. -/
theorem rows_read_back :
    (∀ (human : Bool) (r : StatRecord),
      Row.read? (r.row human) = some ⟨r.cells human, r.threadCell, r.method.display⟩ ∧
        ∀ cell ∈ r.threadCell :: r.cells human, ' ' ∉ cell.toList) ∧
    (∀ r : StatRecord, RowValues.ofRow? (r.row false) = some r.shown) ∧
    (∀ r r' : StatRecord, r.row false = r'.row false ↔ r.shown = r'.shown) ∧
    ∀ (human : Bool) (r : StatRecord), Row.Aligned (r.row human) 0
      ((r.cells human).zip [10, 20, 30, 38, 46, 52, 56]) r.threadCell := by
  refine ⟨fun human r => ⟨r.read?_row human, ?_⟩, ofRow?_row, ?_, aligned_row⟩
  · rw [List.forall_mem_cons]
    exact ⟨r.solid_threadCell.noBlank, fun cell mem => (r.solid_cells human cell mem).noBlank⟩
  · intro r r'
    refine ⟨fun same => ?_, row_congr⟩
    rw [← Option.some_inj, ← ofRow?_row, ← ofRow?_row, same]

/-- A record whose total takes twelve digits, of a method that begins with a blank. -/
def wide : StatRecord :=
  ⟨⟨⟨0, " A b"⟩, ⟨1, "c"⟩, ⟨2, ""⟩⟩, .c2, .zero, 1, some ⟨255⟩, 123456789012, 0, 5, 0⟩

/-- The total moves the next cell to the right, and the one after it falls back to its stop. -/
theorem rows_read_back_wide :
    RowValues.ofRow?
        "123456789012 0      5         0       0.000   c2    1   0x00000000000000ff   A b::c() \n" =
      some ⟨123456789012, 0, 5, 0, "0.000", "c2", 1, 255, " A b::c()"⟩ := by
  have text : wide.row false =
      "123456789012 0      5         0       0.000   c2    1   0x00000000000000ff   A b::c() \n" := by
    decide +kernel
  rw [← text]
  exact (rows_read_back.2.1 wide).trans (by decide +kernel)

end StatRecord

end ArenaPeak
