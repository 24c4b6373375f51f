import ArenaPeak.Proofs.Interning
import Mathlib.Data.Finset.Card
import Mathlib.Data.List.Forall2

/-!
What a symbol store comes to without its serial numbers: the spots, a spot being a text of a table,
that have an entry, and those of them that are pinned. Together with the spots whose symbols are
held they decide which entries are alive, how many there are and when two handles are the same.
-/

namespace ArenaPeak

/-- Where a symbol is interned: a text of a symbol table. -/
@[ext]
structure Spot where
  table : Nat
  text : String
  deriving DecidableEq

theorem exists_of_forall₂ {α β : Type} {R : α → β → Prop} {l : List α} {l' : List β}
    (h : List.Forall₂ R l l') {a : α} (mem : a ∈ l) : ∃ b ∈ l', R a b := by
  induction h with
  | nil => cases mem
  | cons first rest ih =>
      cases List.mem_cons.mp mem with
      | inl eq => exact ⟨_, List.mem_cons_self, eq ▸ first⟩
      | inr later =>
          obtain ⟨b, mem', related⟩ := ih later
          exact ⟨b, List.mem_cons_of_mem _ mem', related⟩

def SymbolEntry.spot (e : SymbolEntry) : Spot :=
  ⟨e.table, e.text⟩

namespace SymbolStore

/-- The symbol is a handle on the entry of a spot. -/
def Holds (st : SymbolStore) (s : Symbol) (p : Spot) : Prop :=
  s.text = p.text ∧ st.Interned p.table s

/-- The store has entries for the known spots, and the pinned ones are among them. -/
structure Books (st : SymbolStore) (known pinned : Finset Spot) : Prop where
  sound : st.Sound
  known : ∀ p, p ∈ known ↔ ∃ s, st.Holds s p
  pinned : ∀ p, p ∈ pinned ↔ ∃ s, st.Holds s p ∧ st.isPermanent s = true
  /-- Nothing is pinned that has no entry. -/
  kept : ∀ s, st.isPermanent s = true → ∃ p s', st.Holds s' p ∧ s'.serial = s.serial

theorem books_empty : empty.Books ∅ ∅ where
  sound := sound_empty
  known p := by simp [Holds, Interned, empty]
  pinned p := by simp [Holds, Interned, empty]
  kept s permanent := by simp [isPermanent, empty] at permanent

variable {st : SymbolStore} {held : List Symbol} {spots : List Spot} {known pinned : Finset Spot}
variable {s s' : Symbol} {p p' : Spot}

theorem Holds.spot (hs : st.Holds s p) : (s.entry p.table).spot = p := by
  cases p
  exact congrArg (Spot.mk _) hs.1

theorem holds_of_mem {e : SymbolEntry} (he : e ∈ st.entries) : st.Holds e.symbol e.spot :=
  ⟨rfl, he⟩

/-- Handles are the same when their spots are. -/
theorem same_iff (h : st.Sound) (hs : st.Holds s p) (hs' : st.Holds s' p') :
    s.same s' = true ↔ p = p' := by
  rw [Symbol.same, beq_iff_eq]
  constructor
  · intro same
    rw [← hs.spot, ← hs'.spot, h.eq_of_serial hs.2 hs'.2 same]
  · rintro rfl
    exact congrArg SymbolEntry.serial (h.eq_of_place hs.2 hs'.2 rfl (hs.1.trans hs'.1.symm))

theorem Books.isPermanent_iff (h : st.Books known pinned) (hs : st.Holds s p) :
    st.isPermanent s = true ↔ p ∈ pinned := by
  rw [h.pinned]
  constructor
  · exact fun permanent => ⟨s, hs, permanent⟩
  · rintro ⟨s', hs', permanent⟩
    have same : s.serial = s'.serial := by
      simpa [Symbol.same] using (same_iff h.sound hs hs').mpr rfl
    rw [isPermanent, same]
    exact permanent

theorem Books.isPermanent_eq (h : st.Books known pinned) (hs : st.Holds s p) :
    st.isPermanent s = decide (p ∈ pinned) :=
  Bool.eq_iff_iff.mpr ((h.isPermanent_iff hs).trans decide_eq_true_iff.symm)

/-- An entry is alive when its spot is held or pinned. -/
theorem Books.alive_iff (h : st.Books known pinned) (aligned : List.Forall₂ st.Holds held spots)
    (hs : st.Holds s p) : st.alive held (s.entry p.table) = true ↔ p ∈ spots ∨ p ∈ pinned := by
  rw [alive, Bool.or_eq_true]
  refine or_congr ?_ (h.isPermanent_iff hs)
  rw [List.any_eq_true]
  constructor
  · rintro ⟨s', mem, same⟩
    obtain ⟨p', mem', hs'⟩ := exists_of_forall₂ aligned mem
    rw [(same_iff h.sound hs hs').mp same]
    exact mem'
  · intro mem
    obtain ⟨s', mem', hs'⟩ := exists_of_forall₂ aligned.flip mem
    exact ⟨s', mem', (same_iff h.sound hs hs').mpr rfl⟩

/-- Entries are counted by their spots. -/
theorem countP_eq_card (h : st.Sound) {counts : SymbolEntry → Bool} {ps : Finset Spot}
    (counted : ∀ s p, st.Holds s p → (counts (s.entry p.table) = true ↔ p ∈ ps))
    (entered : ∀ p ∈ ps, ∃ s, st.Holds s p) : st.entries.countP counts = ps.card := by
  have distinct : (st.entries.map (·.spot)).Nodup := by
    refine List.Nodup.of_map (fun p : Spot => (p.table, p.text)) ?_
    rw [List.map_map]
    exact h.places
  have same : ps = ((st.entries.filter counts).map (·.spot)).toFinset := by
    ext p
    rw [List.mem_toFinset, List.mem_map]
    constructor
    · intro mem
      obtain ⟨s, hs⟩ := entered p mem
      exact ⟨s.entry p.table, List.mem_filter.mpr ⟨hs.2, (counted s p hs).mpr mem⟩, hs.spot⟩
    · rintro ⟨e, mem, rfl⟩
      obtain ⟨he, counts⟩ := List.mem_filter.mp mem
      exact (counted e.symbol e.spot (holds_of_mem he)).mp counts
  rw [same, List.toFinset_card_of_nodup, List.length_map, List.countP_eq_length_filter]
  exact distinct.sublist (List.filter_sublist.map _)

/-- The spots with a live entry. -/
def liveSpots (spots : List Spot) (pinned : Finset Spot) : Finset Spot :=
  spots.toFinset ∪ pinned

theorem Books.alive_iff_mem (h : st.Books known pinned)
    (aligned : List.Forall₂ st.Holds held spots) (hs : st.Holds s p) :
    st.alive held (s.entry p.table) = true ↔ p ∈ liveSpots spots pinned := by
  rw [h.alive_iff aligned hs, liveSpots, Finset.mem_union, List.mem_toFinset]

theorem Books.liveCount_eq (h : st.Books known pinned)
    (aligned : List.Forall₂ st.Holds held spots) (table : Nat) :
    st.liveCount held table = ((liveSpots spots pinned).filter (·.table = table)).card := by
  refine countP_eq_card h.sound ?_ ?_
  · intro s p hs
    rw [Bool.and_eq_true, h.alive_iff_mem aligned hs, Finset.mem_filter, and_comm]
    exact and_congr_right' beq_iff_eq
  · intro p mem
    rw [Finset.mem_filter, liveSpots, Finset.mem_union, List.mem_toFinset] at mem
    cases mem.1 with
    | inl mem =>
        obtain ⟨s, -, hs⟩ := exists_of_forall₂ aligned.flip mem
        exact ⟨s, hs⟩
    | inr mem =>
        obtain ⟨s, hs, -⟩ := (h.pinned p).mp mem
        exact ⟨s, hs⟩

/-- The known spots of a table whose entries are dead. -/
def deadSpots (spots : List Spot) (known pinned : Finset Spot) (table : Nat) : Finset Spot :=
  (known \ liveSpots spots pinned).filter (·.table = table)

/-- Nothing is dead once the dead are gone. -/
theorem deadSpots_sdiff (spots : List Spot) (known pinned : Finset Spot) (table : Nat) :
    deadSpots spots (known \ deadSpots spots known pinned table) pinned table = ∅ := by
  refine Finset.eq_empty_of_forall_notMem ?_
  intro p mem
  obtain ⟨mem, here⟩ := Finset.mem_filter.mp mem
  obtain ⟨mem, dead⟩ := Finset.mem_sdiff.mp mem
  obtain ⟨known, stays⟩ := Finset.mem_sdiff.mp mem
  exact stays (Finset.mem_filter.mpr ⟨Finset.mem_sdiff.mpr ⟨known, dead⟩, here⟩)

theorem Books.deadCount_eq (h : st.Books known pinned)
    (aligned : List.Forall₂ st.Holds held spots) (table : Nat) :
    st.deadCount held table = (deadSpots spots known pinned table).card := by
  refine countP_eq_card h.sound ?_ ?_
  · intro s p hs
    have dead : (!st.alive held (s.entry p.table)) = true ↔ p ∉ liveSpots spots pinned := by
      rw [← h.alive_iff_mem aligned hs, Bool.not_eq_true']
      simp
    rw [Bool.and_eq_true, dead, deadSpots, Finset.mem_filter, Finset.mem_sdiff, and_comm]
    refine and_congr ?_ beq_iff_eq
    exact (and_iff_right ((h.known p).mpr ⟨s, hs⟩)).symm
  · intro p mem
    exact (h.known p).mp (Finset.mem_sdiff.mp (Finset.mem_filter.mp mem).1).1

/-! ### Interning -/

theorem Holds.intern (h : st.Sound) (hs : st.Holds s p)
    (alive : st.alive held (s.entry p.table) = true) (table : Nat) (text : String) :
    (st.intern held table text).2.Holds s p :=
  ⟨hs.1, hs.2.intern h alive table text⟩

theorem holds_intern (st : SymbolStore) (held : List Symbol) (table : Nat) (text : String) :
    (st.intern held table text).2.Holds (st.intern held table text).1 ⟨table, text⟩ :=
  ⟨intern_text st held table text, interned_intern st held table text⟩

/-- A new entry takes the place of what was held at its spot, and of nothing else. -/
theorem holds_renew {table : Nat} {text : String} :
    (st.renew table text).Holds s p ↔
      (p = ⟨table, text⟩ ∧ s = ⟨st.next, text⟩) ∨ (st.Holds s p ∧ p ≠ ⟨table, text⟩) := by
  obtain ⟨t, x⟩ := p
  obtain ⟨n, x'⟩ := s
  simp only [Holds, Interned, mem_renew, Symbol.entry, SymbolEntry.isFor, SymbolEntry.mk.injEq,
    Spot.mk.injEq, Symbol.mk.injEq]
  grind

theorem Books.renew (h : st.Books known pinned) {table : Nat} {text : String}
    (gone : st.find? held table text = none) :
    (st.renew table text).Books (insert ⟨table, text⟩ known) pinned := by
  have elsewhere {s : Symbol} {p : Spot} (hs : st.Holds s p) (permanent : st.isPermanent s = true) :
      p ≠ ⟨table, text⟩ := by
    rintro rfl
    have alive : st.alive held (s.entry table) = true := alive_of_permanent permanent
    have found := find?_of_mem h.sound hs.2 alive
    rw [Symbol.entry, hs.1, gone] at found
    cases found
  refine ⟨sound_renew h.sound table text, ?_, ?_, ?_⟩
  · intro p
    rw [Finset.mem_insert, h.known]
    constructor
    · intro known
      by_cases new : p = ⟨table, text⟩
      · exact ⟨_, holds_renew.mpr (.inl ⟨new, rfl⟩)⟩
      · obtain ⟨s, hs⟩ := known.resolve_left new
        exact ⟨s, holds_renew.mpr (.inr ⟨hs, new⟩)⟩
    · rintro ⟨s, hs⟩
      cases holds_renew.mp hs with
      | inl new => exact .inl new.1
      | inr old => exact .inr ⟨s, old.1⟩
  · intro p
    rw [h.pinned]
    constructor
    · rintro ⟨s, hs, permanent⟩
      exact ⟨s, holds_renew.mpr (.inr ⟨hs, elsewhere hs permanent⟩), permanent⟩
    · rintro ⟨s, hs, permanent⟩
      cases holds_renew.mp hs with
      | inl new =>
          obtain ⟨-, rfl⟩ := new
          have issued := h.sound.pinned st.next
            (by simpa [isPermanent, SymbolStore.renew] using permanent)
          exact absurd issued (Nat.lt_irrefl _)
      | inr old => exact ⟨s, old.1, permanent⟩
  · intro s permanent
    obtain ⟨p, s', hs', same⟩ := h.kept s permanent
    have permanent' : st.isPermanent s' = true := by
      rw [isPermanent, same]
      exact permanent
    exact ⟨p, s', holds_renew.mpr (.inr ⟨hs', elsewhere hs' permanent'⟩), same⟩

theorem Books.intern (h : st.Books known pinned) (held : List Symbol) (table : Nat)
    (text : String) : (st.intern held table text).2.Books (insert ⟨table, text⟩ known) pinned := by
  cases intern_cases st held table text with
  | inl found =>
      obtain ⟨e, found, eq⟩ := found
      obtain ⟨he, rfl, rfl, -⟩ := find?_eq_some found
      have old : e.spot ∈ known := (h.known _).mpr ⟨_, holds_of_mem he⟩
      rw [eq]
      exact (Finset.insert_eq_of_mem old).symm ▸ h
  | inr renewed =>
      obtain ⟨gone, eq⟩ := renewed
      rw [eq]
      exact h.renew gone

/-! ### Pinning and purging -/

theorem holds_pin (s' : Symbol) : (st.pin s').Holds s p ↔ st.Holds s p := by
  rw [Holds, Holds, Interned, Interned, pin_entries]

theorem Books.pin (h : st.Books known pinned) (hs : st.Holds s p) :
    (st.pin s).Books known (insert p pinned) := by
  refine ⟨sound_pin h.sound (hs.2.issued h.sound), ?_, ?_, ?_⟩
  · intro p'
    simp only [holds_pin, h.known]
  · intro p'
    simp only [holds_pin, isPermanent_pin, Bool.or_eq_true, Finset.mem_insert, h.pinned]
    constructor
    · rintro (rfl | ⟨s', hs', permanent⟩)
      · exact ⟨s, hs, .inl (by simp [Symbol.same])⟩
      · exact ⟨s', hs', .inr permanent⟩
    · rintro ⟨s', hs', same | permanent⟩
      · exact .inl ((same_iff h.sound hs hs').mp same).symm
      · exact .inr ⟨s', hs', permanent⟩
  · intro s' permanent
    simp only [holds_pin]
    rw [isPermanent_pin, Bool.or_eq_true] at permanent
    cases permanent with
    | inl same => exact ⟨p, s, hs, by simpa [Symbol.same] using same⟩
    | inr permanent => exact h.kept s' permanent

theorem holds_purge {table : Nat} :
    (st.purge held table).Holds s p ↔
      st.Holds s p ∧ (p.table = table → st.alive held (s.entry p.table) = true) := by
  rw [Holds, Holds, Interned, Interned, SymbolStore.purge, List.mem_filter, and_assoc]
  refine and_congr_right' (and_congr_right' ?_)
  by_cases here : p.table = table <;> simp [Symbol.entry, here]

theorem Books.purge (h : st.Books known pinned) (aligned : List.Forall₂ st.Holds held spots)
    (table : Nat) :
    (st.purge held table).Books (known \ deadSpots spots known pinned table) pinned := by
  refine ⟨sound_purge h.sound held table, ?_, ?_, ?_⟩
  · intro p
    simp only [holds_purge, Finset.mem_sdiff, deadSpots, Finset.mem_filter, not_and, h.known]
    constructor
    · rintro ⟨⟨s, hs⟩, stays⟩
      refine ⟨s, hs, fun here => (h.alive_iff_mem aligned hs).mpr ?_⟩
      by_contra dead
      exact stays ⟨⟨s, hs⟩, dead⟩ here
    · rintro ⟨s, hs, alive⟩
      exact ⟨⟨s, hs⟩, fun dead here => dead.2 ((h.alive_iff_mem aligned hs).mp (alive here))⟩
  · intro p
    rw [h.pinned]
    constructor
    · rintro ⟨s, hs, permanent⟩
      exact ⟨s, holds_purge.mpr ⟨hs, fun _ => alive_of_permanent permanent⟩, permanent⟩
    · rintro ⟨s, hs, permanent⟩
      exact ⟨s, (holds_purge.mp hs).1, permanent⟩
  · intro s permanent
    obtain ⟨p, s', hs', same⟩ := h.kept s permanent
    have permanent' : st.isPermanent s' = true := by
      rw [isPermanent, same]
      exact permanent
    exact ⟨p, s', holds_purge.mpr ⟨hs', fun _ => alive_of_permanent permanent'⟩, same⟩

end SymbolStore

end ArenaPeak
