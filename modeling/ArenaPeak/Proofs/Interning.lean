import ArenaPeak.Method
import Mathlib.Data.List.Nodup

/-!
Symbol stores that come about by interning, pinning and purging. Serials are given out once and a
text has at most one entry in a table, so a handle that is held or pinned goes on standing for its
text, whatever is interned or purged, and interning the text again gives the same handle back.
-/

namespace ArenaPeak

/-- The entry a symbol of a table is a handle on. -/
def Symbol.entry (s : Symbol) (table : Nat) : SymbolEntry :=
  ⟨table, s.text, s.serial⟩

namespace SymbolStore

/-- Serials are given out once, and a text has at most one entry in a table. -/
structure Sound (st : SymbolStore) : Prop where
  issued : ∀ e ∈ st.entries, e.serial < st.next
  pinned : ∀ n ∈ st.pinned, n < st.next
  serials : (st.entries.map (·.serial)).Nodup
  places : (st.entries.map fun e => (e.table, e.text)).Nodup

/-- The symbol is a handle on an entry of the table. -/
def Interned (st : SymbolStore) (table : Nat) (s : Symbol) : Prop :=
  s.entry table ∈ st.entries

instance (st : SymbolStore) (table : Nat) (s : Symbol) : Decidable (st.Interned table s) :=
  inferInstanceAs (Decidable (s.entry table ∈ st.entries))

theorem sound_empty : empty.Sound :=
  ⟨by simp [empty], by simp [empty], by simp [empty], by simp [empty]⟩

variable {st : SymbolStore} {held : List Symbol} {table : Nat} {text : String}

theorem Sound.eq_of_serial (h : st.Sound) {e e' : SymbolEntry} (he : e ∈ st.entries)
    (he' : e' ∈ st.entries) (same : e.serial = e'.serial) : e = e' :=
  List.inj_on_of_nodup_map h.serials he he' same

theorem Sound.eq_of_place (h : st.Sound) {e e' : SymbolEntry} (he : e ∈ st.entries)
    (he' : e' ∈ st.entries) (table : e.table = e'.table) (text : e.text = e'.text) : e = e' :=
  List.inj_on_of_nodup_map h.places he he' (Prod.ext table text)

/-! ### Which entries are alive -/

theorem alive_of_mem {s : Symbol} (h : s ∈ held) : st.alive held (s.entry table) = true := by
  have : held.any s.same = true := List.any_eq_true.mpr ⟨s, h, by simp [Symbol.same]⟩
  simp [alive, Symbol.entry, SymbolEntry.symbol, this]

theorem alive_of_permanent {s : Symbol} (h : st.isPermanent s = true) :
    st.alive held (s.entry table) = true := by
  simp only [alive, Symbol.entry, SymbolEntry.symbol, h, Bool.or_true]

theorem alive_mono {held' : List Symbol} (sub : held ⊆ held') {e : SymbolEntry}
    (h : st.alive held e = true) : st.alive held' e = true := by
  simp only [alive, Bool.or_eq_true, List.any_eq_true] at h ⊢
  cases h with
  | inl left =>
      obtain ⟨s, hs, same⟩ := left
      exact .inl ⟨s, sub hs, same⟩
  | inr h =>
      exact .inr h

/-- Being alive depends on the pinned serials and the handles only. -/
theorem alive_congr {st' : SymbolStore} (h : st'.pinned = st.pinned) (e : SymbolEntry) :
    st'.alive held e = st.alive held e := by
  simp [alive, isPermanent, h]

/-! ### Interning one text -/

theorem find?_eq_some {e : SymbolEntry} (h : st.find? held table text = some e) :
    e ∈ st.entries ∧ e.table = table ∧ e.text = text ∧ st.alive held e = true := by
  rw [find?, Option.filter_eq_some_iff] at h
  have isFor := List.find?_some h.1
  simp only [SymbolEntry.isFor, Bool.and_eq_true, beq_iff_eq] at isFor
  exact ⟨List.mem_of_find?_eq_some h.1, isFor.1, isFor.2, h.2⟩

theorem find?_of_mem (h : st.Sound) {e : SymbolEntry} (he : e ∈ st.entries)
    (alive : st.alive held e = true) : st.find? held e.table e.text = some e := by
  rw [find?, Option.filter_eq_some_iff]
  refine ⟨?_, alive⟩
  cases found : st.entries.find? (·.isFor e.table e.text) with
  | none =>
      have := List.find?_eq_none.mp found e he
      simp [SymbolEntry.isFor] at this
  | some e' =>
      have isFor := List.find?_some found
      simp only [SymbolEntry.isFor, Bool.and_eq_true, beq_iff_eq] at isFor
      rw [h.eq_of_place (List.mem_of_find?_eq_some found) he isFor.1 isFor.2]

/-- Interning either finds a live entry and changes nothing, or makes a new entry. -/
theorem intern_cases (st : SymbolStore) (held : List Symbol) (table : Nat) (text : String) :
    (∃ e, st.find? held table text = some e ∧ st.intern held table text = (e.symbol, st)) ∨
      (st.find? held table text = none ∧
        st.intern held table text = (⟨st.next, text⟩, st.renew table text)) := by
  rw [intern]
  cases st.find? held table text with
  | none => exact .inr ⟨rfl, rfl⟩
  | some e => exact .inl ⟨e, rfl, rfl⟩

@[simp]
theorem intern_text (st : SymbolStore) (held : List Symbol) (table : Nat) (text : String) :
    (st.intern held table text).1.text = text := by
  cases intern_cases st held table text with
  | inl found =>
      obtain ⟨e, found, eq⟩ := found
      rw [eq]
      exact (find?_eq_some found).2.2.1
  | inr renewed =>
      obtain ⟨-, eq⟩ := renewed
      rw [eq]

@[simp]
theorem intern_pinned (st : SymbolStore) (held : List Symbol) (table : Nat) (text : String) :
    (st.intern held table text).2.pinned = st.pinned := by
  cases intern_cases st held table text with
  | inl found =>
      obtain ⟨e, -, eq⟩ := found
      exact congrArg (·.2.pinned) eq
  | inr renewed =>
      obtain ⟨-, eq⟩ := renewed
      exact congrArg (·.2.pinned) eq

theorem next_le_intern (st : SymbolStore) (held : List Symbol) (table : Nat) (text : String) :
    st.next ≤ (st.intern held table text).2.next := by
  cases intern_cases st held table text with
  | inl found =>
      obtain ⟨e, -, eq⟩ := found
      exact Nat.le_of_eq (congrArg (·.2.next) eq).symm
  | inr renewed =>
      obtain ⟨-, eq⟩ := renewed
      exact Nat.le_trans (Nat.le_succ _) (Nat.le_of_eq (congrArg (·.2.next) eq).symm)

theorem mem_renew {e : SymbolEntry} :
    e ∈ (st.renew table text).entries ↔
      e = ⟨table, text, st.next⟩ ∨ e ∈ st.entries ∧ e.isFor table text = false := by
  simp [renew]

theorem sound_renew (h : st.Sound) (table : Nat) (text : String) : (st.renew table text).Sound where
  issued e he := by
    cases mem_renew.mp he with
    | inl eq =>
        subst eq
        exact Nat.lt_succ_self _
    | inr old =>
        obtain ⟨he, -⟩ := old
        exact Nat.lt_succ_of_lt (h.issued e he)
  pinned n hn := Nat.lt_succ_of_lt (h.pinned n hn)
  serials := by
    rw [renew, List.map_cons, List.nodup_cons]
    refine ⟨?_, h.serials.sublist (List.filter_sublist.map _)⟩
    intro given
    obtain ⟨e, he, eq⟩ := List.mem_map.mp given
    exact Nat.ne_of_lt (h.issued e (List.mem_filter.mp he).1) eq
  places := by
    rw [renew, List.map_cons, List.nodup_cons]
    refine ⟨?_, h.places.sublist (List.filter_sublist.map _)⟩
    intro taken
    obtain ⟨e, he, eq⟩ := List.mem_map.mp taken
    obtain ⟨rfl, rfl⟩ := Prod.mk.inj eq
    simpa [SymbolEntry.isFor] using (List.mem_filter.mp he).2

theorem sound_intern (h : st.Sound) (held : List Symbol) (table : Nat) (text : String) :
    (st.intern held table text).2.Sound := by
  cases intern_cases st held table text with
  | inl found =>
      obtain ⟨e, -, eq⟩ := found
      rw [eq]
      exact h
  | inr renewed =>
      obtain ⟨-, eq⟩ := renewed
      rw [eq]
      exact sound_renew h table text

theorem interned_intern (st : SymbolStore) (held : List Symbol) (table : Nat) (text : String) :
    (st.intern held table text).2.Interned table (st.intern held table text).1 := by
  cases intern_cases st held table text with
  | inl found =>
      obtain ⟨e, found, eq⟩ := found
      rw [eq]
      obtain ⟨he, rfl, rfl, -⟩ := find?_eq_some found
      exact he
  | inr renewed =>
      obtain ⟨-, eq⟩ := renewed
      rw [eq]
      exact mem_renew.mpr (.inl rfl)

/-- A live handle stays on its entry whatever is interned. -/
theorem Interned.intern (h : st.Sound) {t : Nat} {s : Symbol} (hs : st.Interned t s)
    (alive : st.alive held (s.entry t) = true) (table : Nat) (text : String) :
    (st.intern held table text).2.Interned t s := by
  cases intern_cases st held table text with
  | inl found =>
      obtain ⟨e, -, eq⟩ := found
      rw [eq]
      exact hs
  | inr renewed =>
      obtain ⟨gone, eq⟩ := renewed
      rw [eq]
      refine mem_renew.mpr (.inr ⟨hs, ?_⟩)
      by_contra isFor
      simp only [SymbolEntry.isFor, Bool.not_eq_false, Bool.and_eq_true, beq_iff_eq] at isFor
      obtain ⟨rfl, rfl⟩ := isFor
      rw [find?_of_mem h hs alive] at gone
      exact Option.some_ne_none _ gone

/-- Interning puts no old serial on a new entry. -/
theorem interned_of_intern {t : Nat} {s : Symbol} (old : s.serial < st.next)
    (hs : (st.intern held table text).2.Interned t s) : st.Interned t s := by
  cases intern_cases st held table text with
  | inl found =>
      obtain ⟨e, -, eq⟩ := found
      rw [eq] at hs
      exact hs
  | inr renewed =>
      obtain ⟨-, eq⟩ := renewed
      rw [eq] at hs
      cases mem_renew.mp hs with
      | inl new =>
          have : s.serial = st.next := congrArg SymbolEntry.serial new
          omega
      | inr old =>
          obtain ⟨hs, -⟩ := old
          exact hs

/-- The text of a live handle is interned as that handle. -/
theorem intern_eq (h : st.Sound) {s : Symbol} (hs : st.Interned table s)
    (alive : st.alive held (s.entry table) = true) :
    st.intern held table s.text = (s, st) := by
  have found : st.find? held table s.text = some (s.entry table) := find?_of_mem h hs alive
  simp only [SymbolStore.intern, found]
  rfl

/-! ### Pinning and purging -/

@[simp]
theorem pin_entries (st : SymbolStore) (s : Symbol) : (st.pin s).entries = st.entries := by
  rw [pin]
  split <;> rfl

@[simp]
theorem pin_next (st : SymbolStore) (s : Symbol) : (st.pin s).next = st.next := by
  rw [pin]
  split <;> rfl

theorem isPermanent_pin (st : SymbolStore) (s s' : Symbol) :
    (st.pin s).isPermanent s' = (s.same s' || st.isPermanent s') := by
  rw [pin]
  split
  · next pinned =>
      by_cases same : s.serial = s'.serial
      · simp [isPermanent, same] at pinned ⊢
        simp [pinned, Symbol.same, same]
      · simp [Symbol.same, same]
  · rw [isPermanent, List.contains_cons, Symbol.same, BEq.comm]
    rfl

theorem sound_pin (h : st.Sound) {s : Symbol} (issued : s.serial < st.next) : (st.pin s).Sound where
  issued e he := by
    rw [pin_next]
    exact h.issued e (by simpa using he)
  pinned n hn := by
    rw [pin_next]
    rw [pin] at hn
    split at hn
    · exact h.pinned n hn
    · cases List.mem_cons.mp hn with
      | inl eq =>
          subst eq
          exact issued
      | inr hn =>
          exact h.pinned n hn
  serials := by simpa using h.serials
  places := by simpa using h.places

theorem sound_purge (h : st.Sound) (held : List Symbol) (table : Nat) :
    (st.purge held table).Sound where
  issued e he := h.issued e (List.mem_filter.mp he).1
  pinned n hn := h.pinned n hn
  serials := h.serials.sublist (List.filter_sublist.map _)
  places := h.places.sublist (List.filter_sublist.map _)

theorem Interned.purge {t : Nat} {s : Symbol} (hs : st.Interned t s)
    (alive : st.alive held (s.entry t) = true) (table : Nat) :
    (st.purge held table).Interned t s :=
  List.mem_filter.mpr ⟨hs, by simp [alive]⟩

theorem interned_of_purge {t : Nat} {s : Symbol} (hs : (st.purge held table).Interned t s) :
    st.Interned t s :=
  (List.mem_filter.mp hs).1

theorem Interned.issued (h : st.Sound) {s : Symbol} (hs : st.Interned table s) :
    s.serial < st.next :=
  h.issued _ hs

end SymbolStore

end ArenaPeak
