import ArenaPeak.Counter
import ArenaPeak.Fields
import ArenaPeak.Json

/-!
The pieces from which readers of values are built. A record is written as an object or as the array
of its fields in order; in an array only fields at the end may be missing.
-/

namespace ArenaPeak.Json

/-- The slots of a record with the given field names. -/
def slots (names : List String) : Json → Option (List (Option Json))
  | .obj fields => Fields.slots names fields
  | .arr items =>
      if items.length ≤ names.length then
        some (items.map some ++ List.replicate (names.length - items.length) none)
      else none
  | _ => none

def required {α : Type} (read : Json → Option α) (slot : Option Json) : Option α :=
  slot.bind read

/-- A slot that has a value of its own when it is empty. -/
def defaulted {α : Type} (default : α) (read : Json → Option α) : Option Json → Option α
  | some j => read j
  | none => some default

def nullable {α : Type} (read : Json → Option α) : Json → Option (Option α)
  | .null => some none
  | j => (read j).map some

def bool? : Json → Option Bool
  | .bool b => some b
  | _ => none

def str? : Json → Option String
  | .str s => some s
  | _ => none

def list? {α : Type} (read : Json → Option α) : Json → Option (List α)
  | .arr items => items.mapM read
  | _ => none

def natBelow? (bound : Nat) : Json → Option Nat
  | .int n => if 0 ≤ n && n < bound then some n.toNat else none
  | _ => none

def word? (j : Json) : Option UInt64 :=
  (natBelow? UInt64.size j).map UInt64.ofNat

def halfWord? (j : Json) : Option UInt32 :=
  (natBelow? UInt32.size j).map UInt32.ofNat

def signedWord? : Json → Option Int64
  | .int n =>
      if Int64.minValue.toInt ≤ n && n ≤ Int64.maxValue.toInt then some (Int64.ofInt n) else none
  | _ => none

/-- A name among a fixed set, also written as an object with the name and nothing to it. -/
def name? {α : Type} (ofName? : String → Option α) : Json → Option α
  | .str s => ofName? s
  | .obj [(s, .null)] => ofName? s
  | _ => none

def ofWord (w : UInt64) : Json :=
  .int w.toNat

def ofHalfWord (w : UInt32) : Json :=
  .int w.toNat

def ofSignedWord (w : Int64) : Json :=
  .int w.toInt

def ofOption {α : Type} (write : α → Json) : Option α → Json
  | some a => write a
  | none => .null

def ofList {α : Type} (write : α → Json) (as : List α) : Json :=
  .arr (as.map write)

end ArenaPeak.Json
