import ArenaPeak.Report

/-!
A table together with the symbols of its methods, worked on step by step. Methods are given by
name: each step interns the one it names and lets go of it again, so that only the records of the
table hold on to symbols.
-/

namespace ArenaPeak

structure Catalogue where
  table : StatTable
  symbols : SymbolStore

namespace Catalogue

def empty : Catalogue :=
  ⟨.empty, .empty⟩

def held (c : Catalogue) : List Symbol :=
  c.table.records.flatMap (·.method.symbols)

inductive Step where
  | upsert (method : MethodName) (commit : Commit)
  | get (method : MethodName)
  | row (method : MethodName) (human : Bool)
  | view (method : MethodName)
  | snapshot (minSize : UInt64)
  | sort (methods : List MethodName)

inductive Answer where
  | record (r : Option StatRecord)
  | text (s : String)
  | view (v : RecordView)
  | names (ns : List String)

/-- The method of a name, and the catalogue in which it has been interned. -/
def intern (c : Catalogue) (name : MethodName) : Method × Catalogue :=
  let (m, symbols) := c.symbols.internMethod c.held 0 name
  (m, { c with symbols })

def recordOf (c : Catalogue) (m : Method) : StatRecord :=
  (c.table.get? m).getD (.fresh m)

/-- The records of some methods, in their order; methods without a record are left out. -/
def recordsOf (c : Catalogue) : List MethodName → List StatRecord × Catalogue
  | [] => ([], c)
  | name :: names =>
      let (m, c) := c.intern name
      let (records, c) := recordsOf c names
      ((c.table.get? m).toList ++ records, c)

def step (c : Catalogue) : Step → Answer × Catalogue
  | .upsert name commit =>
      let (m, c) := c.intern name
      let table := c.table.upsert m commit
      (.record (table.get? m), { c with table })
  | .get name =>
      let (m, c) := c.intern name
      (.record (c.table.get? m), c)
  | .row name human =>
      let (m, c) := c.intern name
      (.text ((c.recordOf m).row human), c)
  | .view name =>
      let (m, c) := c.intern name
      (.view (c.recordOf m).view, c)
  | .snapshot minSize =>
      (.names (((c.table.snapshot minSize).map (·.method.display)).mergeSort (· ≤ ·)), c)
  | .sort names =>
      let (records, c) := c.recordsOf names
      (.names ((StatTable.sortBySize records).map (·.method.display)), c)

/-- A step as a build of some flavour takes it: a snapshot is audited before it is shown. -/
def perform (f : Flavour) (c : Catalogue) (st : Step) : Except Violation Answer × Catalogue :=
  let audited := match st with
    | .snapshot minSize => c.table.audit f minSize
    | _ => .ok ()
  match audited with
  | .ok () => (.ok (c.step st).1, (c.step st).2)
  | .error v => (.error v, c)

end Catalogue

end ArenaPeak
