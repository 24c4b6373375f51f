import ArenaPeak.Symbol

/-!
The identity of a compiled method: the symbols of its class, its name and its signature. Two
methods are the same when their symbols are, part by part.
-/

namespace ArenaPeak

/-- The three texts a method is named by. -/
structure MethodName where
  owner : String
  name : String
  signature : String
  deriving DecidableEq

structure Method where
  owner : Symbol
  name : Symbol
  signature : Symbol
  deriving DecidableEq

namespace Method

/-- The serials of the three symbols; they decide identity. -/
def key (m : Method) : Nat × Nat × Nat :=
  (m.owner.serial, m.name.serial, m.signature.serial)

def same (a b : Method) : Bool :=
  a.key == b.key

def symbols (m : Method) : List Symbol :=
  [m.owner, m.name, m.signature]

def texts (m : Method) : MethodName :=
  ⟨m.owner.text, m.name.text, m.signature.text⟩

/-- The digests of the three parts, combined by exclusive or. -/
def hash (m : Method) : UInt32 :=
  m.owner.hash ^^^ m.name.hash ^^^ m.signature.hash

/-- The text shown for a method, as in `Class::name(signature)`. -/
def display (m : Method) : String :=
  m.owner.text ++ "::" ++ m.name.text ++ "(" ++ m.signature.text ++ ")"

def inspect (m : Method) : String :=
  "MethodIdentity(" ++ m.display ++ ")"

end Method

namespace SymbolStore

/-- Interns the three parts in order, each held while the next one is interned. -/
def internMethod (st : SymbolStore) (held : List Symbol) (table : Nat) (n : MethodName) :
    Method × SymbolStore :=
  let (owner, st) := st.intern held table n.owner
  let (name, st) := st.intern (owner :: held) table n.name
  let (signature, st) := st.intern (name :: owner :: held) table n.signature
  (⟨owner, name, signature⟩, st)

def pinMethod (st : SymbolStore) (m : Method) : SymbolStore :=
  ((st.pin m.owner).pin m.name).pin m.signature

/-- A method is permanent once all its parts are. -/
def isPermanentMethod (st : SymbolStore) (m : Method) : Bool :=
  m.symbols.all st.isPermanent

end SymbolStore

end ArenaPeak
