import ArenaPeak.Proofs.Interning

/-!
Methods and the places they are interned from, a place being a symbol table with three texts. In a
sound store a method stands for one place and a place for one method at most; interning the place
again gives that method back as long as its symbols are alive.
-/

namespace ArenaPeak

/-- Where a method is interned from: a symbol table and three texts. -/
structure Place where
  table : Nat
  name : MethodName
  deriving DecidableEq

def MethodName.parts (n : MethodName) : List String :=
  [n.owner, n.name, n.signature]

namespace Method

/-- The method stands for a place: it has the three texts, interned in the table. -/
def At (m : Method) (st : SymbolStore) (p : Place) : Prop :=
  m.texts = p.name ∧ ∀ s ∈ m.symbols, st.Interned p.table s

instance (m : Method) (st : SymbolStore) (p : Place) : Decidable (m.At st p) :=
  inferInstanceAs (Decidable (_ ∧ _))

variable {m m' : Method} {st : SymbolStore} {p p' : Place}

theorem At.owner (h : m.At st p) : st.Interned p.table m.owner :=
  h.2 _ (by simp [symbols])

theorem At.name (h : m.At st p) : st.Interned p.table m.name :=
  h.2 _ (by simp [symbols])

theorem At.signature (h : m.At st p) : st.Interned p.table m.signature :=
  h.2 _ (by simp [symbols])

theorem at_iff : m.At st p ↔ m.texts = p.name ∧ st.Interned p.table m.owner ∧
    st.Interned p.table m.name ∧ st.Interned p.table m.signature := by
  simp [At, symbols]

/-- Two handles on one text of one table are the same. -/
theorem symbol_unique (h : st.Sound) {t : Nat} {s s' : Symbol} (hs : st.Interned t s)
    (hs' : st.Interned t s') (text : s.text = s'.text) : s = s' := by
  have same : s.entry t = s'.entry t := h.eq_of_place hs hs' rfl text
  have serial : s.serial = s'.serial := congrArg SymbolEntry.serial same
  cases s
  cases s'
  simp_all

theorem At.unique (h : st.Sound) (hm : m.At st p) (hm' : m'.At st p) : m = m' := by
  have texts : m.texts = m'.texts := hm.1.trans hm'.1.symm
  simp only [Method.texts, MethodName.mk.injEq] at texts
  have owner := symbol_unique h hm.owner hm'.owner texts.1
  have name := symbol_unique h hm.name hm'.name texts.2.1
  have signature := symbol_unique h hm.signature hm'.signature texts.2.2
  cases m
  cases m'
  simp_all

/-- Methods that are the same come from the same place. -/
theorem At.place_eq (h : st.Sound) (hm : m.At st p) (hm' : m'.At st p')
    (alike : m.same m' = true) : p = p' := by
  simp only [same, key, beq_iff_eq, Prod.mk.injEq] at alike
  have owner := h.eq_of_serial hm.owner hm'.owner alike.1
  have name := h.eq_of_serial hm.name hm'.name alike.2.1
  have signature := h.eq_of_serial hm.signature hm'.signature alike.2.2
  simp only [Symbol.entry, SymbolEntry.mk.injEq] at owner name signature
  have names : p.name = p'.name := by
    rw [← hm.1, ← hm'.1]
    simp [texts, owner, name, signature]
  cases p
  cases p'
  simp_all

/-- The hash does not see the order of the three texts. -/
theorem hash_of_perm (texts : m.texts.parts.Perm m'.texts.parts) : m.hash = m'.hash := by
  have combined (m : Method) : m.hash = (m.texts.parts.map fun text =>
      Digest.short text.toUTF8.toList).foldr (· ^^^ ·) 0 := by
    simp [hash, Symbol.hash, Method.texts, MethodName.parts, UInt32.xor_assoc]
  rw [combined, combined]
  refine (texts.map _).foldr_eq' ?_ 0
  intro x _ y _ z
  rw [← UInt32.xor_assoc, ← UInt32.xor_assoc, UInt32.xor_comm y x]

@[simp]
theorem same_self (m : Method) : m.same m = true := by
  simp [same]

end Method

namespace SymbolStore

variable {st : SymbolStore} {held : List Symbol} {p : Place}

/-! ### Interning a method -/

@[simp]
theorem internMethod_texts (st : SymbolStore) (held : List Symbol) (table : Nat) (n : MethodName) :
    (st.internMethod held table n).1.texts = n := by
  simp [internMethod, Method.texts]

@[simp]
theorem internMethod_pinned (st : SymbolStore) (held : List Symbol) (table : Nat)
    (n : MethodName) : (st.internMethod held table n).2.pinned = st.pinned := by
  simp [internMethod]

theorem sound_internMethod (h : st.Sound) (held : List Symbol) (table : Nat) (n : MethodName) :
    (st.internMethod held table n).2.Sound :=
  sound_intern (sound_intern (sound_intern h _ _ _) _ _ _) _ _ _

theorem Interned.internMethod (h : st.Sound) {t : Nat} {s : Symbol} (hs : st.Interned t s)
    (alive : st.alive held (s.entry t) = true) (table : Nat) (n : MethodName) :
    (st.internMethod held table n).2.Interned t s := by
  let first := st.intern held table n.owner
  let second := first.2.intern (first.1 :: held) table n.name
  have h₁ : first.2.Sound := sound_intern h held table n.owner
  have h₂ : second.2.Sound := sound_intern h₁ (first.1 :: held) table n.name
  have alive₁ : first.2.alive (first.1 :: held) (s.entry t) = true :=
    alive_mono (List.subset_cons_self _ _) ((alive_congr (by simp [first]) _).trans alive)
  have alive₂ : second.2.alive (second.1 :: first.1 :: held) (s.entry t) = true :=
    alive_mono (List.subset_cons_self _ _) ((alive_congr (by simp [second]) _).trans alive₁)
  exact ((hs.intern h alive table n.owner).intern h₁ alive₁ table n.name).intern h₂ alive₂ table
    n.signature

theorem interned_of_internMethod {t : Nat} {s : Symbol} (old : s.serial < st.next)
    {table : Nat} {n : MethodName} (hs : (st.internMethod held table n).2.Interned t s) :
    st.Interned t s := by
  let first := st.intern held table n.owner
  have old₁ : s.serial < first.2.next :=
    Nat.lt_of_lt_of_le old (next_le_intern st held table n.owner)
  have old₂ := Nat.lt_of_lt_of_le old₁ (next_le_intern first.2 (first.1 :: held) table n.name)
  exact interned_of_intern old (interned_of_intern old₁ (interned_of_intern old₂ hs))

/-- Each part is held while the next ones are interned, so all three stand at the end. -/
theorem internMethod_at (h : st.Sound) (held : List Symbol) (p : Place) :
    (st.internMethod held p.table p.name).1.At (st.internMethod held p.table p.name).2 p := by
  let first := st.intern held p.table p.name.owner
  let second := first.2.intern (first.1 :: held) p.table p.name.name
  have h₁ : first.2.Sound := sound_intern h held p.table p.name.owner
  have h₂ : second.2.Sound := sound_intern h₁ (first.1 :: held) p.table p.name.name
  have owner : second.2.Interned p.table first.1 :=
    (interned_intern st held p.table p.name.owner).intern h₁ (alive_of_mem List.mem_cons_self) _ _
  have name : second.2.Interned p.table second.1 :=
    interned_intern first.2 (first.1 :: held) p.table p.name.name
  refine Method.at_iff.mpr ⟨internMethod_texts st held p.table p.name, ?_, ?_, ?_⟩
  · exact owner.intern h₂ (alive_of_mem (List.mem_cons_of_mem _ List.mem_cons_self)) _ _
  · exact name.intern h₂ (alive_of_mem List.mem_cons_self) _ _
  · exact interned_intern _ _ _ _

/-- The texts of a method whose symbols are alive are interned as that method. -/
theorem internMethod_eq (h : st.Sound) {m : Method} (hm : m.At st p)
    (alive : ∀ s ∈ m.symbols, st.alive held (s.entry p.table) = true) :
    st.internMethod held p.table p.name = (m, st) := by
  obtain ⟨texts, owner, name, signature⟩ := Method.at_iff.mp hm
  simp only [Method.symbols, List.forall_mem_cons] at alive
  rw [← texts]
  simp only [internMethod, Method.texts]
  rw [intern_eq h owner alive.1]
  simp only
  rw [intern_eq h name (alive_mono (List.subset_cons_self _ _) alive.2.1)]
  simp only
  rw [intern_eq h signature]
  refine alive_mono ?_ alive.2.2.1
  exact fun _ hs => List.mem_cons_of_mem _ (List.mem_cons_of_mem _ hs)

/-! ### Pinning a method -/

@[simp]
theorem pinMethod_entries (st : SymbolStore) (m : Method) :
    (st.pinMethod m).entries = st.entries := by
  simp [pinMethod]

theorem isPermanent_pinMethod (st : SymbolStore) (m : Method) (s : Symbol) :
    (st.pinMethod m).isPermanent s = (m.symbols.any (·.same s) || st.isPermanent s) := by
  simp only [pinMethod, isPermanent_pin, Method.symbols, List.any_cons, List.any_nil]
  cases m.owner.same s <;> cases m.name.same s <;> cases m.signature.same s <;> rfl

theorem isPermanent_pinMethod_self (st : SymbolStore) {m : Method} {s : Symbol}
    (hs : s ∈ m.symbols) : (st.pinMethod m).isPermanent s = true := by
  have : m.symbols.any (·.same s) = true := List.any_eq_true.mpr ⟨s, hs, by simp [Symbol.same]⟩
  rw [isPermanent_pinMethod, this, Bool.true_or]

theorem isPermanent_pinMethod_mono {m : Method} {s : Symbol} (h : st.isPermanent s = true) :
    (st.pinMethod m).isPermanent s = true := by
  rw [isPermanent_pinMethod, h, Bool.or_true]

theorem sound_pinMethod (h : st.Sound) {m : Method} (hm : m.At st p) : (st.pinMethod m).Sound := by
  refine sound_pin (sound_pin (sound_pin h (hm.owner.issued h)) ?_) ?_
  · simpa using hm.name.issued h
  · simpa using hm.signature.issued h

end SymbolStore

/-! ### Methods that stay in place -/

namespace Method.At

open SymbolStore

variable {m : Method} {st : SymbolStore} {held : List Symbol} {p : Place}

theorem internMethod (hm : m.At st p) (h : st.Sound) (sub : m.symbols ⊆ held) (table : Nat)
    (n : MethodName) : m.At (st.internMethod held table n).2 p := by
  refine ⟨hm.1, ?_⟩
  intro s hs
  exact (hm.2 s hs).internMethod h (alive_of_mem (sub hs)) table n

theorem purge (hm : m.At st p) (sub : m.symbols ⊆ held) (table : Nat) :
    m.At (st.purge held table) p := by
  refine ⟨hm.1, ?_⟩
  intro s hs
  exact (hm.2 s hs).purge (alive_of_mem (sub hs)) table

theorem pinMethod (hm : m.At st p) (m' : Method) : m.At (st.pinMethod m') p := by
  refine ⟨hm.1, ?_⟩
  intro s hs
  have interned := hm.2 s hs
  rw [Interned, pinMethod_entries]
  exact interned

end Method.At

end ArenaPeak
