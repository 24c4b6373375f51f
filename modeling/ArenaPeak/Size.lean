/-!
Byte counts with a unit, for people. The unit is the largest of which there are at least a hundred,
and the rest below one unit is cut off.
-/

namespace ArenaPeak

inductive SizeUnit where
  | byte
  | kilo
  | mega
  | giga
  deriving DecidableEq

namespace SizeUnit

def bytes : SizeUnit → Nat
  | .byte => 1
  | .kilo => 1024
  | .mega => 1024 * 1024
  | .giga => 1024 * 1024 * 1024

def letter : SizeUnit → String
  | .byte => "B"
  | .kilo => "K"
  | .mega => "M"
  | .giga => "G"

def of (n : Nat) : SizeUnit :=
  if 100 * giga.bytes ≤ n then .giga
  else if 100 * mega.bytes ≤ n then .mega
  else if 100 * kilo.bytes ≤ n then .kilo
  else .byte

end SizeUnit

structure Size where
  amount : Nat
  unit : SizeUnit
  deriving DecidableEq

namespace Size

def of (bytes : UInt64) : Size :=
  let unit := SizeUnit.of bytes.toNat
  ⟨bytes.toNat / unit.bytes, unit⟩

def text (s : Size) : String :=
  toString s.amount ++ s.unit.letter

end Size

end ArenaPeak
