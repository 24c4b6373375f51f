import ArenaPeak.Method

/-!
Named handles on symbols and methods over a symbol store, and the steps that make, copy, pin and
drop them. Symbols and methods have separate name spaces. Giving a name a new value drops what it
held, after the new value has been made.
-/

namespace ArenaPeak

structure Holdings where
  store : SymbolStore
  symbols : List (String × Symbol)
  methods : List (String × Method)

namespace Holdings

def empty : Holdings :=
  ⟨.empty, [], []⟩

def held (h : Holdings) : List Symbol :=
  h.symbols.map (·.2) ++ h.methods.flatMap (·.2.symbols)

def assign {α : Type} (name : String) (a : α) (named : List (String × α)) : List (String × α) :=
  (name, a) :: named.filter (·.1 != name)

def forget {α : Type} (name : String) (named : List (String × α)) : List (String × α) :=
  named.filter (·.1 != name)

inductive Step where
  | intern (table : Nat) (text target : String)
  | copy (handle target : String)
  | drop (handle : String)
  | pin (handle : String)
  | isPermanent (handle : String)
  | same (a b : String)
  | inspect (handle : String)
  | liveCount (table : Nat)
  | purge (table : Nat)
  | method (owner name signature target : String)
  | internMethod (table : Nat) (name : MethodName) (target : String)
  | dropMethod (handle : String)
  | pinMethod (handle : String)
  | isPermanentMethod (handle : String)
  | sameMethod (a b : String)
  | hashMethod (handle : String)

inductive Answer where
  | done
  | symbol (text : String) (hash : UInt32) (permanent : Bool)
  | shown (display inspected : String)
  | text (s : String)
  | flag (b : Bool)
  | count (n : Nat)
  | hash (h : UInt32)

def symbol? (h : Holdings) (name : String) : Option Symbol :=
  h.symbols.lookup name

def method? (h : Holdings) (name : String) : Option Method :=
  h.methods.lookup name

def holdSymbol (h : Holdings) (name : String) (s : Symbol) : Holdings :=
  { h with symbols := assign name s h.symbols }

def holdMethod (h : Holdings) (name : String) (m : Method) : Holdings :=
  { h with methods := assign name m h.methods }

/-- One step. There is no answer when a step reads a name that holds nothing. -/
def step (h : Holdings) : Step → Option (Answer × Holdings)
  | .intern table text target =>
      let (s, store) := h.store.intern h.held table text
      some (.symbol s.text s.hash (store.isPermanent s), { h with store }.holdSymbol target s)
  | .copy handle target => do
      let s ← h.symbol? handle
      return (.done, h.holdSymbol target s)
  | .drop handle =>
      some (.flag (h.symbol? handle).isSome, { h with symbols := forget handle h.symbols })
  | .pin handle => do
      let s ← h.symbol? handle
      let store := h.store.pin s
      return (.flag (store.isPermanent s), { h with store })
  | .isPermanent handle => do
      let s ← h.symbol? handle
      return (.flag (h.store.isPermanent s), h)
  | .same a b => do
      let a ← h.symbol? a
      let b ← h.symbol? b
      return (.flag (a.same b), h)
  | .inspect handle => do
      let s ← h.symbol? handle
      return (.shown s.text s.inspect, h)
  | .liveCount table => some (.count (h.store.liveCount h.held table), h)
  | .purge table =>
      some (.count (h.store.deadCount h.held table),
        { h with store := h.store.purge h.held table })
  | .method owner name signature target => do
      let owner ← h.symbol? owner
      let name ← h.symbol? name
      let signature ← h.symbol? signature
      let m : Method := ⟨owner, name, signature⟩
      return (.text m.display, h.holdMethod target m)
  | .internMethod table name target =>
      let (m, store) := h.store.internMethod h.held table name
      some (.text m.display, { h with store }.holdMethod target m)
  | .dropMethod handle =>
      some (.flag (h.method? handle).isSome, { h with methods := forget handle h.methods })
  | .pinMethod handle => do
      let m ← h.method? handle
      let store := h.store.pinMethod m
      return (.flag (store.isPermanentMethod m), { h with store })
  | .isPermanentMethod handle => do
      let m ← h.method? handle
      return (.flag (h.store.isPermanentMethod m), h)
  | .sameMethod a b => do
      let a ← h.method? a
      let b ← h.method? b
      return (.flag (a.same b), h)
  | .hashMethod handle => do
      let m ← h.method? handle
      return (.hash m.hash, h)

end Holdings

end ArenaPeak
