import ArenaPeak.Digest
import ArenaPeak.Text.Quoted

/-!
Interned symbols. A symbol is a handle on a text, and two symbols are the same only if they are
handles on the same interned entry; comparing them never looks at the text. A store keeps the
entries of any number of tables. An entry is alive while some handle on it is held or once it has
been pinned; which handles are held is known to the caller, who passes them along. A dead entry
stays until it is purged or its text is interned again, which makes a new entry.
-/

namespace ArenaPeak

/-- A handle on an interned text. The serial number tells entries apart. -/
structure Symbol where
  serial : Nat
  text : String
  deriving DecidableEq

namespace Symbol

/-- Whether two handles are on the same entry. -/
def same (a b : Symbol) : Bool :=
  a.serial == b.serial

def hash (s : Symbol) : UInt32 :=
  Digest.short s.text.toUTF8.toList

def inspect (s : Symbol) : String :=
  "Symbol(" ++ Text.quoted s.text ++ ")"

end Symbol

structure SymbolEntry where
  table : Nat
  text : String
  serial : Nat
  deriving DecidableEq

namespace SymbolEntry

def isFor (table : Nat) (text : String) (e : SymbolEntry) : Bool :=
  e.table == table && e.text == text

def symbol (e : SymbolEntry) : Symbol :=
  ⟨e.serial, e.text⟩

end SymbolEntry

/-- The entries of all tables, the pinned serials, and the serial the next symbol gets. -/
structure SymbolStore where
  entries : List SymbolEntry
  pinned : List Nat
  next : Nat

namespace SymbolStore

def empty : SymbolStore :=
  ⟨[], [], 0⟩

def isPermanent (st : SymbolStore) (s : Symbol) : Bool :=
  st.pinned.contains s.serial

/-- Whether an entry is held by one of the handles or pinned. -/
def alive (st : SymbolStore) (held : List Symbol) (e : SymbolEntry) : Bool :=
  held.any e.symbol.same || st.isPermanent e.symbol

/-- Pins a symbol; a second time changes nothing. -/
def pin (st : SymbolStore) (s : Symbol) : SymbolStore :=
  if st.isPermanent s then st else { st with pinned := s.serial :: st.pinned }

def find? (st : SymbolStore) (held : List Symbol) (table : Nat) (text : String) :
    Option SymbolEntry :=
  (st.entries.find? (·.isFor table text)).filter (st.alive held)

/-- The store with a new entry for a text, in the place of whatever entry there was for it. -/
def renew (st : SymbolStore) (table : Nat) (text : String) : SymbolStore :=
  { st with
    entries := ⟨table, text, st.next⟩ :: st.entries.filter (!·.isFor table text)
    next := st.next + 1 }

/-- The live symbol of a text, or a new one that takes the place of a dead entry. -/
def intern (st : SymbolStore) (held : List Symbol) (table : Nat) (text : String) :
    Symbol × SymbolStore :=
  match st.find? held table text with
  | some e => (e.symbol, st)
  | none => (⟨st.next, text⟩, st.renew table text)

def liveCount (st : SymbolStore) (held : List Symbol) (table : Nat) : Nat :=
  st.entries.countP fun e => e.table == table && st.alive held e

def deadCount (st : SymbolStore) (held : List Symbol) (table : Nat) : Nat :=
  st.entries.countP fun e => e.table == table && !st.alive held e

def purge (st : SymbolStore) (held : List Symbol) (table : Nat) : SymbolStore :=
  { st with entries := st.entries.filter fun e => e.table != table || st.alive held e }

end SymbolStore

end ArenaPeak
