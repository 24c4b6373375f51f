import ArenaPeak.Record
import ArenaPeak.Size
import ArenaPeak.Text.Quoted

/-!
The row of a record in a text report. Cells are followed by a blank and padded to fixed column
stops, which are counted in bytes from the start of the row; a cell that is too wide pushes the
next one to the right, and a later cell falls back to its stop as soon as there is room. The thread
and the method come last and are not padded.
-/

namespace ArenaPeak

namespace Row

def padTo (stop : Nat) (line : String) : String :=
  line ++ String.ofList (List.replicate (stop - line.utf8ByteSize) ' ')

def stops : List Nat :=
  [10, 20, 30, 38, 46, 52, 56]

/-- Cells laid out one after the other, each followed by a blank and padded to its stop. -/
def layout (cells : List (String × Nat)) : String :=
  cells.foldl (fun line (cell, stop) => padTo stop (line ++ cell ++ " ")) ""

def hexWord (w : UInt64) : String :=
  let digits := Nat.toDigits 16 w.toNat
  "0x" ++ String.ofList (List.replicate (16 - digits.length) '0' ++ digits)

end Row

namespace StatRecord

/-- A byte count as a row shows it, with units if it is to be read by people. -/
def sizeCell (human : Bool) (bytes : UInt64) : String :=
  if human then (Size.of bytes).text else toString bytes.toNat

def cells (human : Bool) (r : StatRecord) : List String :=
  [ sizeCell human r.total, sizeCell human r.nodeAtPeak, sizeCell human r.resourceAtPeak,
    toString r.liveNodesAtPeak.toNat, r.time.fixed, r.kind.name, toString r.recompilations.toNat ]

/-- The thread as a row shows it; a record that has none shows zero. -/
def threadCell (r : StatRecord) : String :=
  Row.hexWord (match r.thread with
    | some t => t.number
    | none => 0)

def row (human : Bool) (r : StatRecord) : String :=
  Row.layout ((r.cells human).zip Row.stops) ++ r.threadCell ++ "  " ++ r.method.display ++ " \n"

def header : String :=
  "total     NA        RA        #nodes  time    type  #rc thread              method\n"

def legend : List String :=
  [ "Legend:\n",
    "  total  : memory allocated via arenas while compiling\n",
    "  NA     : ...how much in node arenas (if c2)\n",
    "  RA     : ...how much in resource areas\n",
    "  #nodes : ...how many nodes (if c2)\n",
    "  time   : time of last compilation (sec)\n",
    "  type   : compiler type\n",
    "  #rc    : how often recompiled\n",
    "  thread : compiler thread\n" ]

end StatRecord

end ArenaPeak
