import ArenaPeak.Fields
import ArenaPeak.Trace
import ArenaPeak.Yaml.Node

/-!
Reading a trace from a YAML document. A text is any scalar; numbers, switches and empty values are
plain scalars of the core schema. Records are mappings only, and an empty value may stand for an
empty mapping or sequence. Following aliases is bounded: a reader may do so a hundred times for each
mark of the document.
-/

namespace ArenaPeak.Yaml

/-- A reader of nodes. The state is how many aliases may still be followed. -/
abbrev Reader (α : Type) := StateT Nat Option α

def fail {α : Type} : Reader α :=
  fun _ => none

def Document.target? (d : Document) (anchor : Nat) : Option Node :=
  let candidates := d.targets.filter (·.anchor == anchor)
  let last := candidates.foldl (fun n t => max n t.order) 0
  (candidates.find? (·.order == last)).map (·.node)

def follow (d : Document) : Node → Reader Node
  | .alias anchor => do
      match ← get, d.target? anchor with
      | n + 1, some node =>
          set n
          return node
      | _, _ => fail
  | node => return node

def isNullWord (s : String) : Bool :=
  s == "null" || s == "Null" || s == "NULL" || s == "~"

def coreTag (name : String) : TagBytes :=
  ("tag:yaml.org,2002:" ++ name).toUTF8.toList

def nullTag : TagBytes :=
  coreTag "null"

def boolTag : TagBytes :=
  coreTag "bool"

def intTag : TagBytes :=
  coreTag "int"

/-- The text of a scalar, of whatever style and tag. -/
def text (d : Document) (n : Node) : Reader String := do
  match ← follow d n with
  | .scalar _ _ s => return s
  | _ => fail

/-- The text of a scalar that may be a number or a switch: a plain one, or a literal block with the
right tag. -/
def bareText (tag : TagBytes) (d : Document) (n : Node) : Reader String := do
  match ← follow d n with
  | .scalar _ .plain s => return s
  | .scalar (some t) .literal s => if t == tag then return s else fail
  | _ => fail

def bool (d : Document) (n : Node) : Reader Bool := do
  match ← bareText boolTag d n with
  | "true" | "True" | "TRUE" => return true
  | "false" | "False" | "FALSE" => return false
  | _ => fail

def digit? (base : Nat) (c : Char) : Option Nat :=
  let v := if c.isDigit then c.toNat - '0'.toNat
    else if 'a' ≤ c.toLower && c.toLower ≤ 'z' then c.toLower.toNat - 'a'.toNat + 10
    else base
  if v < base then some v else none

def digits? (base : Nat) (cs : List Char) : Option Nat :=
  if cs.isEmpty then none
  else do
    let ds ← cs.mapM (digit? base)
    return ds.foldl (fun n d => n * base + d) 0

/-- The base a number's beginning names, and what follows it. -/
def based : List Char → Option (Nat × List Char)
  | '0' :: 'x' :: rest => some (16, rest)
  | '0' :: 'o' :: rest => some (8, rest)
  | '0' :: 'b' :: rest => some (2, rest)
  | _ => none

/-- Decimal digits, of which the first is an idle zero only if it is alone. -/
def decimal? (cs : List Char) : Option Nat :=
  if cs.head? == some '0' && 1 < cs.length then none else digits? 10 cs

def magnitude? (cs : List Char) : Option Nat :=
  match based cs with
  | some (base, rest) => digits? base rest
  | none => decimal? cs

/-- An integer of the core schema, with an optional sign. -/
def integer? (s : String) : Option Int :=
  match s.toList with
  | '+' :: rest => (magnitude? rest).map fun n => (n : Int)
  | '-' :: rest => (magnitude? rest).map fun n => -(n : Int)
  | cs => (magnitude? cs).map fun n => (n : Int)

def integer (d : Document) (n : Node) : Reader Int := do
  match integer? (← bareText intTag d n) with
  | some i => return i
  | none => fail

def natBelow (bound : Nat) (d : Document) (n : Node) : Reader Nat := do
  let s ← bareText intTag d n
  if s.startsWith "-" then fail
  else
    match integer? s with
    | some i => if i < bound then return i.toNat else fail
    | none => fail

def word (d : Document) (n : Node) : Reader UInt64 :=
  UInt64.ofNat <$> natBelow UInt64.size d n

def halfWord (d : Document) (n : Node) : Reader UInt32 :=
  UInt32.ofNat <$> natBelow UInt32.size d n

def signedWord (d : Document) (n : Node) : Reader Int64 := do
  let i ← integer d n
  if Int64.minValue.toInt ≤ i && i ≤ Int64.maxValue.toInt then return Int64.ofInt i else fail

/-- Whether a node stands for nothing. With the tag of nothing it must. -/
def isNull : Node → Reader Bool
  | .scalar none .plain s => return s.isEmpty || isNullWord s
  | .scalar (some tag) .plain s =>
      if tag == nullTag then if isNullWord s then return true else fail else return false
  | _ => return false

def nullable {α : Type} (read : Document → Node → Reader α) (d : Document) (n : Node) :
    Reader (Option α) := do
  let n ← follow d n
  if ← isNull n then return none else some <$> read d n

def list {α : Type} (read : Document → Node → Reader α) (d : Document) (n : Node) :
    Reader (List α) := do
  match ← follow d n with
  | .sequence _ items => items.mapM (read d)
  | .scalar _ .plain "" => return []
  | _ => fail

/-- The name that a local tag is; none if it is not local or is no text. -/
def localName? (tag : TagBytes) : Option String :=
  match tag with
  | b :: rest =>
      if b == tagByte '!' then String.fromUTF8? (if rest.isEmpty then [b] else rest).toByteArray
      else none
  | [] => none

def tagOf : Node → Option TagBytes
  | .scalar tag _ _ | .sequence tag _ | .mapping tag _ => tag
  | .alias _ => none

/-- A name among a fixed set: the text of a scalar, or the local tag of a plain scalar that says
nothing else. -/
def name {α : Type} (ofName? : String → Option α) (d : Document) (n : Node) : Reader α := do
  let n ← follow d n
  let s ← match (tagOf n).bind localName?, n with
    | some s, .scalar _ .plain t => if t.isEmpty || isNullWord t then pure s else fail
    | some _, _ => fail
    | none, .scalar _ _ t => pure t
    | none, _ => fail
  match ofName? s with
  | some a => return a
  | none => fail

def slots (names : List String) (d : Document) (n : Node) : Reader (List (Option Node)) := do
  let fields ← match ← follow d n with
    | .mapping _ fields => pure fields
    | .scalar _ .plain "" => pure []
    | _ => fail
  let fields ← fields.mapM fun (key, value) => do return (← text d key, value)
  match Fields.slots names fields with
  | some slots => return slots
  | none => fail

def required {α : Type} (read : Document → Node → Reader α) (d : Document) :
    Option Node → Reader α
  | some n => read d n
  | none => fail

def defaulted {α : Type} (default : α) (read : Document → Node → Reader α) (d : Document) :
    Option Node → Reader α
  | some n => read d n
  | none => return default

def directive (d : Document) (n : Node) : Reader Directive := do
  match ← slots ["collect", "print"] d n with
  | [collect, print] =>
      return ⟨← defaulted false bool d collect, ← defaulted false bool d print⟩
  | _ => fail

def event (d : Document) (n : Node) : Reader TraceEvent := do
  match ← slots ["delta", "tag", "live_nodes"] d n with
  | [delta, tag, liveNodes] =>
      return ⟨← required signedWord d delta, ← required (name ArenaTag.ofName?) d tag,
        ← defaulted none (nullable halfWord) d liveNodes⟩
  | _ => fail

def compilation (d : Document) (n : Node) : Reader TraceCompilation := do
  match ← slots ["class", "method", "signature", "compiler", "directive", "events"] d n with
  | [owner, method, signature, compiler, dir, events] =>
      return ⟨← required text d owner, ← required text d method, ← required text d signature,
        ← defaulted .c1 (name CompilerKind.ofName?) d compiler,
        ← defaulted none (nullable directive) d dir, ← defaulted [] (list event) d events⟩
  | _ => fail

def trace (d : Document) (n : Node) : Reader Trace := do
  match ← slots ["threads", "compilations"] d n with
  | [threads, compilations] =>
      return ⟨← defaulted none (nullable word) d threads,
        ← required (list compilation) d compilations⟩
  | _ => fail

end ArenaPeak.Yaml

namespace ArenaPeak

/-- Reads a trace from a YAML text, without validating it. -/
def Trace.ofYaml? (s : String) : Option Trace := do
  let d ← Yaml.Document.read s
  let (t, _) ← (Yaml.trace d d.root).run (100 * d.events)
  return t

end ArenaPeak
