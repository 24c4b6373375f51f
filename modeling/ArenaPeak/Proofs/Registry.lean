import ArenaPeak.Proofs.Records
import ArenaPeak.Proofs.Spots
import ArenaPeak.Symbol.Holdings

/-!
Handles without serial numbers. A registry knows the spot that every named handle came from, the
spots that were interned and not removed since, and those that were ever pinned. It answers the
steps on handles from these alone, and its answers are those of the symbol store: handles are the
same when their spots are, a text is alive while it is held or once it is pinned, and a purge takes
away what is dead and nothing else.
-/

namespace ArenaPeak

/-- The spots of the three parts of a method. -/
structure Parts where
  owner : Spot
  name : Spot
  signature : Spot
  deriving DecidableEq

namespace Parts

def spots (q : Parts) : List Spot :=
  [q.owner, q.name, q.signature]

/-- A method with the texts of the parts. -/
def method (q : Parts) : Method :=
  ⟨⟨0, q.owner.text⟩, ⟨0, q.name.text⟩, ⟨0, q.signature.text⟩⟩

/-- The parts of a method that is interned in one table. -/
def of (table : Nat) (n : MethodName) : Parts :=
  ⟨⟨table, n.owner⟩, ⟨table, n.name⟩, ⟨table, n.signature⟩⟩

end Parts

structure Registry where
  symbols : List (String × Spot)
  methods : List (String × Parts)
  /-- The spots that were interned and not removed since. -/
  known : Finset Spot
  pinned : Finset Spot

namespace Registry

open Holdings (Step Answer assign forget)
open SymbolStore (liveSpots deadSpots)

def empty : Registry :=
  ⟨[], [], ∅, ∅⟩

def held (r : Registry) : List Spot :=
  r.symbols.map (·.2) ++ r.methods.flatMap (·.2.spots)

/-- The spots of a table that are held or pinned. -/
def live (r : Registry) (table : Nat) : Finset Spot :=
  (liveSpots r.held r.pinned).filter (·.table = table)

/-- The known spots of a table that are neither held nor pinned. -/
def dead (r : Registry) (table : Nat) : Finset Spot :=
  deadSpots r.held r.known r.pinned table

def step (r : Registry) : Step → Option (Answer × Registry)
  | .intern table text target =>
      let p : Spot := ⟨table, text⟩
      some (.symbol text (Symbol.mk 0 text).hash (decide (p ∈ r.pinned)),
        { r with symbols := assign target p r.symbols, known := insert p r.known })
  | .copy handle target => do
      let p ← r.symbols.lookup handle
      return (.done, { r with symbols := assign target p r.symbols })
  | .drop handle =>
      some (.flag (r.symbols.lookup handle).isSome,
        { r with symbols := forget handle r.symbols })
  | .pin handle => do
      let p ← r.symbols.lookup handle
      return (.flag true, { r with pinned := insert p r.pinned })
  | .isPermanent handle => do
      let p ← r.symbols.lookup handle
      return (.flag (decide (p ∈ r.pinned)), r)
  | .same a b => do
      let p ← r.symbols.lookup a
      let p' ← r.symbols.lookup b
      return (.flag (decide (p = p')), r)
  | .inspect handle => do
      let p ← r.symbols.lookup handle
      return (.shown p.text (Symbol.mk 0 p.text).inspect, r)
  | .liveCount table => some (.count (r.live table).card, r)
  | .purge table =>
      some (.count (r.dead table).card, { r with known := r.known \ r.dead table })
  | .method owner name signature target => do
      let owner ← r.symbols.lookup owner
      let name ← r.symbols.lookup name
      let signature ← r.symbols.lookup signature
      let q : Parts := ⟨owner, name, signature⟩
      return (.text q.method.display, { r with methods := assign target q r.methods })
  | .internMethod table name target =>
      let q := Parts.of table name
      some (.text q.method.display,
        { r with
          methods := assign target q r.methods
          known := insert q.signature (insert q.name (insert q.owner r.known)) })
  | .dropMethod handle =>
      some (.flag (r.methods.lookup handle).isSome,
        { r with methods := forget handle r.methods })
  | .pinMethod handle => do
      let q ← r.methods.lookup handle
      return (.flag true,
        { r with pinned := insert q.signature (insert q.name (insert q.owner r.pinned)) })
  | .isPermanentMethod handle => do
      let q ← r.methods.lookup handle
      return (.flag (q.spots.all fun p => decide (p ∈ r.pinned)), r)
  | .sameMethod a b => do
      let q ← r.methods.lookup a
      let q' ← r.methods.lookup b
      return (.flag (decide (q = q')), r)
  | .hashMethod handle => do
      let q ← r.methods.lookup handle
      return (.hash q.method.hash, r)

end Registry

namespace SymbolStore

variable {st : SymbolStore} {held : List Symbol} {known pinned : Finset Spot} {m m' : Method}
variable {q q' : Parts}

/-- The parts of the method are handles on the entries of the spots. -/
structure HoldsParts (st : SymbolStore) (m : Method) (q : Parts) : Prop where
  owner : st.Holds m.owner q.owner
  name : st.Holds m.name q.name
  signature : st.Holds m.signature q.signature

theorem HoldsParts.symbols (hm : st.HoldsParts m q) :
    List.Forall₂ st.Holds m.symbols q.spots :=
  .cons hm.owner (.cons hm.name (.cons hm.signature .nil))

theorem HoldsParts.texts (hm : st.HoldsParts m q) : m.texts = q.method.texts := by
  simp [Method.texts, Parts.method, hm.owner.1, hm.name.1, hm.signature.1]

theorem same_method_iff (h : st.Sound) (hm : st.HoldsParts m q) (hm' : st.HoldsParts m' q') :
    m.same m' = true ↔ q = q' := by
  have owner := same_iff h hm.owner hm'.owner
  have name := same_iff h hm.name hm'.name
  have signature := same_iff h hm.signature hm'.signature
  simp only [Symbol.same, beq_iff_eq] at owner name signature
  rw [Method.same, Method.key, Method.key, beq_iff_eq, Prod.mk.injEq, Prod.mk.injEq, owner, name,
    signature]
  cases q
  cases q'
  simp

theorem Books.isPermanentMethod_eq (h : st.Books known pinned) (hm : st.HoldsParts m q) :
    st.isPermanentMethod m = q.spots.all fun p => decide (p ∈ pinned) := by
  simp [isPermanentMethod, Method.symbols, Parts.spots, h.isPermanent_eq hm.owner,
    h.isPermanent_eq hm.name, h.isPermanent_eq hm.signature]

theorem Books.pinMethod (h : st.Books known pinned) (hm : st.HoldsParts m q) :
    (st.pinMethod m).Books known (insert q.signature (insert q.name (insert q.owner pinned))) := by
  have owner := h.pin hm.owner
  have name := owner.pin ((holds_pin m.owner).mpr hm.name)
  exact name.pin ((holds_pin m.name).mpr ((holds_pin m.owner).mpr hm.signature))

theorem Books.internMethod (h : st.Books known pinned) (held : List Symbol) (table : Nat)
    (n : MethodName) :
    (st.internMethod held table n).2.Books
      (insert (Parts.of table n).signature (insert (Parts.of table n).name
        (insert (Parts.of table n).owner known))) pinned :=
  ((h.intern held table n.owner).intern _ table n.name).intern _ table n.signature

theorem Holds.internMethod {s : Symbol} {p : Spot} (hs : st.Holds s p) (h : st.Sound)
    (alive : st.alive held (s.entry p.table) = true) (table : Nat) (n : MethodName) :
    (st.internMethod held table n).2.Holds s p :=
  ⟨hs.1, hs.2.internMethod h alive table n⟩

theorem holdsParts_internMethod (h : st.Sound) (held : List Symbol) (table : Nat)
    (n : MethodName) :
    (st.internMethod held table n).2.HoldsParts (st.internMethod held table n).1
      (Parts.of table n) := by
  obtain ⟨texts, owner, name, signature⟩ := Method.at_iff.mp (internMethod_at h held ⟨table, n⟩)
  exact ⟨⟨congrArg (·.owner) texts, owner⟩, ⟨congrArg (·.name) texts, name⟩,
    ⟨congrArg (·.signature) texts, signature⟩⟩

end SymbolStore

theorem SymbolStore.keeps_intern {st : SymbolStore} (h : st.Sound) (held : List Symbol)
    (table : Nat) (text : String) : st.Keeps (st.intern held table text).2 where
  permanent s hs := by simpa [isPermanent] using hs
  interned _ _ hs permanent := hs.intern h (alive_of_permanent permanent) table text
  old _ _ old hs := interned_of_intern old hs

theorem SymbolStore.keeps_pin (st : SymbolStore) (s : Symbol) : st.Keeps (st.pin s) where
  permanent s' hs := by rw [isPermanent_pin, hs, Bool.or_true]
  interned _ _ hs _ := by simpa [Interned] using hs
  old _ _ _ hs := by simpa [Interned] using hs

theorem Method.display_congr {m m' : Method} (texts : m.texts = m'.texts) :
    m.display = m'.display := by
  obtain ⟨owner, name, signature⟩ := MethodName.mk.inj texts
  simp only [Method.display, owner, name, signature]

/-! ### Named values -/

/-- Values that are related, under one name. -/
def Named {α β : Type} (R : α → β → Prop) (a : String × α) (b : String × β) : Prop :=
  a.1 = b.1 ∧ R a.2 b.2

section

open Holdings (assign forget)

variable {α β : Type} {R : α → β → Prop} {l : List (String × α)} {l' : List (String × β)}

theorem named_forget (named : List.Forall₂ (Named R) l l') (name : String) :
    List.Forall₂ (Named R) (forget name l) (forget name l') := by
  refine List.rel_filter ?_ named
  intro a b related
  simp only [related.1]

theorem named_assign (named : List.Forall₂ (Named R) l l') (name : String) {a : α} {b : β}
    (related : R a b) : List.Forall₂ (Named R) (assign name a l) (assign name b l') :=
  .cons ⟨rfl, related⟩ (named_forget named name)

theorem lookup_named (named : List.Forall₂ (Named R) l l') (name : String) :
    Option.Rel R (l.lookup name) (l'.lookup name) := by
  induction named with
  | nil => exact .none
  | @cons a b l l' first rest ih =>
      obtain ⟨n, a⟩ := a
      obtain ⟨n', b⟩ := b
      obtain ⟨(rfl : n = n'), related⟩ := first
      rw [List.lookup_cons, List.lookup_cons]
      cases name == n with
      | true => exact .some related
      | false => exact ih

theorem lookup_some (named : List.Forall₂ (Named R) l l') {name : String} {a : α}
    (found : l.lookup name = some a) : ∃ b, l'.lookup name = some b ∧ R a b := by
  have related := lookup_named named name
  rw [found] at related
  generalize l'.lookup name = b? at related
  cases related with
  | some related => exact ⟨_, rfl, related⟩

theorem bind_rel {γ δ : Type} {S : γ → δ → Prop} {a? : Option α} {b? : Option β}
    (related : Option.Rel R a? b?) {f : α → Option γ} {g : β → Option δ}
    (next : ∀ a b, R a b → Option.Rel S (f a) (g b)) : Option.Rel S (a? >>= f) (b? >>= g) := by
  cases related with
  | none => exact .none
  | some related => exact next _ _ related

theorem isSome_rel {a? : Option α} {b? : Option β} (related : Option.Rel R a? b?) :
    a?.isSome = b?.isSome := by
  cases related <;> rfl

end

namespace Registry

open Holdings (Step Answer)

variable {r : Registry} {h : Holdings}

/-- The registry says of every handle which spot it is for, and keeps the books of the store. -/
structure Describes (r : Registry) (h : Holdings) : Prop where
  books : h.store.Books r.known r.pinned
  symbols : List.Forall₂ (Named h.store.Holds) h.symbols r.symbols
  methods : List.Forall₂ (Named h.store.HoldsParts) h.methods r.methods

theorem describes_empty : empty.Describes .empty :=
  ⟨SymbolStore.books_empty, .nil, .nil⟩

theorem Describes.held (d : r.Describes h) : List.Forall₂ h.store.Holds h.held r.held := by
  refine List.rel_append (List.rel_map (fun a b named => named.2) d.symbols) ?_
  exact List.rel_flatMap d.methods fun a b named => named.2.symbols

/-- What stays held in another store stays under its names. -/
theorem Describes.carry (d : r.Describes h) {st : SymbolStore} {known pinned : Finset Spot}
    (books : st.Books known pinned)
    (stays : ∀ s ∈ h.held, ∀ p, h.store.Holds s p → st.Holds s p) :
    Describes { r with known, pinned } { h with store := st } := by
  refine ⟨books, ?_, ?_⟩
  · have mem : ∀ a ∈ h.symbols, a.2 ∈ h.held :=
      fun a mem => List.mem_append_left _ (List.mem_map_of_mem mem)
    refine ((List.forall₂_and_left h.symbols r.symbols).mpr ⟨mem, d.symbols⟩).imp ?_
    exact fun a b both => ⟨both.2.1, stays _ both.1 _ both.2.2⟩
  · have sub : ∀ a ∈ h.methods, a.2.symbols ⊆ h.held :=
      fun a mem s hs => List.mem_append_right _ (List.mem_flatMap.mpr ⟨a, mem, hs⟩)
    refine ((List.forall₂_and_left h.methods r.methods).mpr ⟨sub, d.methods⟩).imp ?_
    intro a b both
    obtain ⟨sub, name, parts⟩ := both
    exact ⟨name, stays _ (sub (by simp [Method.symbols])) _ parts.owner,
      stays _ (sub (by simp [Method.symbols])) _ parts.name,
      stays _ (sub (by simp [Method.symbols])) _ parts.signature⟩

theorem Describes.internSymbol (d : r.Describes h) (table : Nat) (text : String) :
    Describes { r with known := insert ⟨table, text⟩ r.known }
      { h with store := (h.store.intern h.held table text).2 } :=
  d.carry (d.books.intern h.held table text)
    fun _ mem _ hs => hs.intern d.books.sound (SymbolStore.alive_of_mem mem) table text

/-- A step is answered as the registry says. -/
theorem step_describes (d : r.Describes h) (st : Step) :
    Option.Rel (fun a b => a.1 = b.1 ∧ b.2.Describes a.2) (h.step st) (r.step st) := by
  have symbol (name : String) := lookup_named d.symbols name
  have method (name : String) := lookup_named d.methods name
  cases st with
  | intern table text target =>
      have d' := d.internSymbol table text
      have new := SymbolStore.holds_intern h.store h.held table text
      have shown : (h.store.intern h.held table text).1.text = text := new.1
      have hash : (h.store.intern h.held table text).1.hash = (Symbol.mk 0 text).hash := by
        rw [Symbol.hash, Symbol.hash, shown]
      refine .some ⟨?_, d'.books, named_assign d'.symbols target new, d'.methods⟩
      exact congr (congr (congrArg Answer.symbol shown) hash) (d'.books.isPermanent_eq new)
  | copy handle target =>
      exact bind_rel (symbol handle) fun s p hs =>
        .some ⟨rfl, d.books, named_assign d.symbols target hs, d.methods⟩
  | drop handle =>
      refine .some ⟨?_, d.books, named_forget d.symbols handle, d.methods⟩
      exact congrArg Answer.flag (isSome_rel (symbol handle))
  | pin handle =>
      refine bind_rel (symbol handle) fun s p hs => .some ⟨?_, ?_⟩
      · exact congrArg Answer.flag (by simp [SymbolStore.isPermanent_pin, Symbol.same])
      · exact d.carry (d.books.pin hs) fun s' mem p' hs' => (SymbolStore.holds_pin s).mpr hs'
  | isPermanent handle =>
      refine bind_rel (symbol handle) fun s p hs => .some ⟨?_, d⟩
      exact congrArg Answer.flag (d.books.isPermanent_eq hs)
  | same a b =>
      refine bind_rel (symbol a) fun s p hs => bind_rel (symbol b) fun s' p' hs' => .some ⟨?_, d⟩
      have same := SymbolStore.same_iff d.books.sound hs hs'
      exact congrArg Answer.flag (Bool.eq_iff_iff.mpr (same.trans decide_eq_true_iff.symm))
  | inspect handle =>
      refine bind_rel (symbol handle) fun s p hs => .some ⟨?_, d⟩
      simp only [Symbol.inspect, hs.1]
  | liveCount table =>
      exact .some ⟨congrArg Answer.count (d.books.liveCount_eq d.held table), d⟩
  | purge table =>
      refine .some ⟨congrArg Answer.count (d.books.deadCount_eq d.held table), ?_⟩
      exact d.carry (d.books.purge d.held table) fun s mem p hs =>
        SymbolStore.holds_purge.mpr ⟨hs, fun _ => SymbolStore.alive_of_mem mem⟩
  | method owner name signature target =>
      refine bind_rel (symbol owner) fun s p hs => bind_rel (symbol name) fun s' p' hs' =>
        bind_rel (symbol signature) fun s'' p'' hs'' => .some ⟨?_, ?_⟩
      · simp only [Method.display, Parts.method, hs.1, hs'.1, hs''.1]
      · exact ⟨d.books, d.symbols, named_assign d.methods target ⟨hs, hs', hs''⟩⟩
  | internMethod table name target =>
      have d' := d.carry (d.books.internMethod h.held table name) fun s mem p hs =>
        hs.internMethod d.books.sound (SymbolStore.alive_of_mem mem) table name
      have new := SymbolStore.holdsParts_internMethod d.books.sound h.held table name
      refine .some ⟨?_, d'.books, d'.symbols, named_assign d'.methods target new⟩
      exact congrArg Answer.text (Method.display_congr new.texts)
  | dropMethod handle =>
      refine .some ⟨?_, d.books, d.symbols, named_forget d.methods handle⟩
      exact congrArg Answer.flag (isSome_rel (method handle))
  | pinMethod handle =>
      refine bind_rel (method handle) fun m q hm => .some ⟨?_, ?_⟩
      · refine congrArg Answer.flag (List.all_eq_true.mpr fun s mem => ?_)
        exact SymbolStore.isPermanent_pinMethod_self h.store mem
      · refine d.carry (d.books.pinMethod hm) fun s mem p hs => ?_
        exact ⟨hs.1, by rw [SymbolStore.Interned, SymbolStore.pinMethod_entries]; exact hs.2⟩
  | isPermanentMethod handle =>
      refine bind_rel (method handle) fun m q hm => .some ⟨?_, d⟩
      exact congrArg Answer.flag (d.books.isPermanentMethod_eq hm)
  | sameMethod a b =>
      refine bind_rel (method a) fun m q hm => bind_rel (method b) fun m' q' hm' => .some ⟨?_, d⟩
      have same := SymbolStore.same_method_iff d.books.sound hm hm'
      exact congrArg Answer.flag (Bool.eq_iff_iff.mpr (same.trans decide_eq_true_iff.symm))
  | hashMethod handle =>
      refine bind_rel (method handle) fun m q hm => .some ⟨?_, d⟩
      exact congrArg Answer.hash (Method.hash_of_perm (.of_eq (congrArg MethodName.parts hm.texts)))

/-! ### Runs -/

/-- The answers to a list of steps, and the state after them; a step without an answer changes
nothing. -/
def answer {σ : Type} (step : σ → Step → Option (Answer × σ)) (s : σ) :
    List Step → List (Option Answer) × σ
  | [] => ([], s)
  | st :: rest =>
      match step s st with
      | some (a, s) => (some a :: (answer step s rest).1, (answer step s rest).2)
      | none => (none :: (answer step s rest).1, (answer step s rest).2)

theorem answer_describes (d : r.Describes h) (steps : List Step) :
    (answer Holdings.step h steps).1 = (answer step r steps).1 ∧
      (answer step r steps).2.Describes (answer Holdings.step h steps).2 := by
  induction steps generalizing r h with
  | nil => exact ⟨rfl, d⟩
  | cons st steps ih =>
      have first := step_describes d st
      simp only [answer]
      generalize h.step st = a? at first ⊢
      generalize r.step st = b? at first ⊢
      cases first with
      | none =>
          obtain ⟨answers, after⟩ := ih d
          exact ⟨congrArg (none :: ·) answers, after⟩
      | some related =>
          obtain ⟨same, d'⟩ := related
          obtain ⟨answers, after⟩ := ih d'
          exact ⟨congr (congrArg (List.cons ∘ some) same) answers, after⟩

/-- Pinned symbols stay pinned and on their entries, whatever step is taken. -/
theorem keeps_step (sound : h.store.Sound) {st : Step} {a : Answer} {h' : Holdings}
    (taken : h.step st = some (a, h')) : h.store.Keeps h'.store := by
  cases st with
  | intern table text target =>
      cases taken
      exact SymbolStore.keeps_intern sound h.held table text
  | internMethod table name target =>
      cases taken
      exact SymbolStore.keeps_internMethod sound h.held table name
  | purge table =>
      cases taken
      exact SymbolStore.keeps_purge h.store h.held table
  | pin handle =>
      obtain ⟨s, -, taken⟩ := Option.bind_eq_some_iff.mp taken
      cases taken
      exact SymbolStore.keeps_pin h.store s
  | pinMethod handle =>
      obtain ⟨m, -, taken⟩ := Option.bind_eq_some_iff.mp taken
      cases taken
      exact SymbolStore.keeps_pinMethod h.store m
  | copy handle target | isPermanent handle | inspect handle | isPermanentMethod handle
  | hashMethod handle =>
      obtain ⟨x, -, taken⟩ := Option.bind_eq_some_iff.mp taken
      cases taken
      exact SymbolStore.keeps_refl h.store
  | same a b | sameMethod a b =>
      obtain ⟨x, -, taken⟩ := Option.bind_eq_some_iff.mp taken
      obtain ⟨y, -, taken⟩ := Option.bind_eq_some_iff.mp taken
      cases taken
      exact SymbolStore.keeps_refl h.store
  | method owner name signature target =>
      obtain ⟨x, -, taken⟩ := Option.bind_eq_some_iff.mp taken
      obtain ⟨y, -, taken⟩ := Option.bind_eq_some_iff.mp taken
      obtain ⟨z, -, taken⟩ := Option.bind_eq_some_iff.mp taken
      cases taken
      exact SymbolStore.keeps_refl h.store
  | drop handle | liveCount table | dropMethod handle =>
      cases taken
      exact SymbolStore.keeps_refl h.store

theorem answer_pinned (d : r.Describes h) {s : Symbol} {p : Spot} (hs : h.store.Holds s p)
    (permanent : h.store.isPermanent s = true) (steps : List Step) :
    (answer Holdings.step h steps).2.store.Holds s p ∧
      (answer Holdings.step h steps).2.store.isPermanent s = true := by
  induction steps generalizing r h with
  | nil => exact ⟨hs, permanent⟩
  | cons st steps ih =>
      have first := step_describes d st
      simp only [answer]
      cases taken : h.step st with
      | none => exact ih d hs permanent
      | some a =>
          have keeps := keeps_step d.books.sound taken
          rw [taken] at first
          generalize r.step st = b? at first
          cases first with
          | some related =>
              exact ih related.2 ⟨hs.1, keeps.interned _ s hs.2 permanent⟩
                (keeps.permanent s permanent)

/-! ### What handles are worth -/

/-- The handles of a state, against the registry of the steps that led there. -/
structure Exact (h : Holdings) (r : Registry) : Prop where
  /-- The live handles, those that methods hold among them, are on the registry's spots. -/
  handles : List.Forall₂ (fun s p => s.text = p.text) h.held r.held
  same : ∀ x ∈ h.held.zip r.held, ∀ y ∈ h.held.zip r.held,
    x.1.same y.1 = true ↔ x.2.table = y.2.table ∧ x.2.text = y.2.text
  methods : ∀ a b m m', h.method? a = some m → h.method? b = some m' →
    (m.same m' = true ↔ m.owner.same m'.owner = true ∧ m.name.same m'.name = true ∧
      m.signature.same m'.signature = true) ∧
    (m.same m' = true ↔ r.methods.lookup a = r.methods.lookup b)
  live : ∀ table, h.store.liveCount h.held table = (r.live table).card
  /-- A purge counts the dead and leaves alone who holds what, what is alive and what is permanent;
  a second one finds nothing. -/
  purge : ∀ table, ∃ h', h.step (.purge table) = some (.count (r.dead table).card, h') ∧
    h'.symbols = h.symbols ∧ h'.methods = h.methods ∧
    (∀ table', h'.store.liveCount h'.held table' = h.store.liveCount h.held table') ∧
    (∀ s, h'.store.isPermanent s = h.store.isPermanent s) ∧
    ∃ h'', h'.step (.purge table) = some (.count 0, h'')
  /-- Interning the text of a live handle gives that handle. -/
  canonical : ∀ x ∈ h.held.zip r.held,
    h.store.intern h.held x.2.table x.2.text = (x.1, h.store)
  permanent : ∀ p : Spot, (h.store.intern h.held p.table p.text).2.isPermanent
    (h.store.intern h.held p.table p.text).1 = true ↔ p ∈ r.pinned
  /-- What is pinned is interned as the same handle ever after. -/
  lasting : ∀ p ∈ r.pinned, ∀ steps,
    (answer Holdings.step h steps).2.store.intern (answer Holdings.step h steps).2.held
        p.table p.text =
      ((h.store.intern h.held p.table p.text).1, (answer Holdings.step h steps).2.store)

/-- The registry of a state in which a table was purged. -/
def purged (r : Registry) (table : Nat) : Registry :=
  { r with known := r.known \ r.dead table }

theorem Describes.purge (d : r.Describes h) (table : Nat) :
    (r.purged table).Describes { h with store := h.store.purge h.held table } :=
  d.carry (d.books.purge d.held table) fun _ mem _ hs =>
    SymbolStore.holds_purge.mpr ⟨hs, fun _ => SymbolStore.alive_of_mem mem⟩

theorem Describes.exact (d : r.Describes h) : Exact h r where
  handles := d.held.imp fun s p hs => hs.1
  same x mem y mem' := by
    rw [SymbolStore.same_iff d.books.sound (List.forall₂_zip d.held mem)
      (List.forall₂_zip d.held mem'), Spot.ext_iff]
  methods a b m m' found found' := by
    obtain ⟨q, known, parts⟩ := lookup_some d.methods found
    obtain ⟨q', known', parts'⟩ := lookup_some d.methods found'
    constructor
    · simp [Method.same, Method.key, Symbol.same]
    · rw [SymbolStore.same_method_iff d.books.sound parts parts', known, known', Option.some_inj]
  live table := d.books.liveCount_eq d.held table
  purge table := by
    have d' := d.purge table
    refine ⟨_, congrArg some (congrArg (Prod.mk · _) ?_), rfl, rfl, ?_, fun s => rfl, _,
      congrArg some (congrArg (Prod.mk · _) ?_)⟩
    · exact congrArg Answer.count (d.books.deadCount_eq d.held table)
    · intro table'
      exact (d'.books.liveCount_eq d'.held table').trans (d.books.liveCount_eq d.held table').symm
    · refine congrArg Answer.count ((d'.books.deadCount_eq d'.held table).trans ?_)
      exact congrArg Finset.card (SymbolStore.deadSpots_sdiff r.held r.known r.pinned table)
  canonical x mem := by
    have hs := List.forall₂_zip d.held mem
    rw [← hs.1]
    exact SymbolStore.intern_eq d.books.sound hs.2
      (SymbolStore.alive_of_mem (List.of_mem_zip mem).1)
  permanent p := by
    have books := d.books.intern h.held p.table p.text
    exact books.isPermanent_iff (SymbolStore.holds_intern h.store h.held p.table p.text)
  lasting p pinned steps := by
    obtain ⟨s, hs, permanent⟩ := (d.books.pinned p).mp pinned
    obtain ⟨hs', permanent'⟩ := answer_pinned d hs permanent steps
    have d' := (answer_describes d steps).2
    rw [← hs.1, SymbolStore.intern_eq d.books.sound hs.2 (SymbolStore.alive_of_permanent permanent),
      SymbolStore.intern_eq d'.books.sound hs'.2 (SymbolStore.alive_of_permanent permanent')]

/-- Whatever is done with handles, the answers are those of the registry, and the handles that come
of it are worth what the registry says. -/
theorem handles_exact (steps : List Step) :
    (answer Holdings.step .empty steps).1 = (answer step empty steps).1 ∧
      Exact (answer Holdings.step .empty steps).2 (answer step empty steps).2 := by
  obtain ⟨answers, d⟩ := answer_describes describes_empty steps
  exact ⟨answers, d.exact⟩

end Registry

end ArenaPeak
