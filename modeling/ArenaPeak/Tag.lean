/-!
What a compilation is labelled with: the tag of the arena an allocation lands in, the compiler that
ran it and the thread it ran on.
-/

namespace ArenaPeak

/-- The tag of an arena. Only node and resource arenas have totals of their own. -/
inductive ArenaTag where
  | other
  | resource
  | handle
  | node
  deriving DecidableEq

namespace ArenaTag

def all : List ArenaTag :=
  [.other, .resource, .handle, .node]

def name : ArenaTag → String
  | .other => "other"
  | .resource => "resource"
  | .handle => "handle"
  | .node => "node"

def ofName? : String → Option ArenaTag
  | "other" => some .other
  | "resource" | "ra" => some .resource
  | "handle" => some .handle
  | "node" | "na" => some .node
  | _ => none

theorem ofName?_name (t : ArenaTag) : ofName? t.name = some t := by
  cases t <;> rfl

end ArenaTag

inductive CompilerKind where
  | c1
  | c2
  | jvmci
  | none
  deriving DecidableEq

namespace CompilerKind

def name : CompilerKind → String
  | .c1 => "c1"
  | .c2 => "c2"
  | .jvmci => "jvmci"
  | .none => "none"

def ofName? : String → Option CompilerKind
  | "c1" => some .c1
  | "c2" => some .c2
  | "jvmci" => some .jvmci
  | "none" => some .none
  | _ => Option.none

theorem ofName?_name (k : CompilerKind) : ofName? k.name = some k := by
  cases k <;> rfl

end CompilerKind

/-- The number of a compiler thread. It is only ever shown. -/
structure ThreadId where
  number : UInt64
  deriving DecidableEq

namespace ThreadId

/-- The number that is given out first. -/
def first : ThreadId :=
  ⟨1⟩

/-- The number that is given out when so many have been since this one. -/
def after (t : ThreadId) (n : Nat) : ThreadId :=
  ⟨t.number + UInt64.ofNat n⟩

def display (t : ThreadId) : String :=
  "CompilerThreadId(" ++ toString t.number.toNat ++ ")"

instance : Ord ThreadId where
  compare a b := compare a.number.toNat b.number.toNat

end ThreadId

end ArenaPeak
