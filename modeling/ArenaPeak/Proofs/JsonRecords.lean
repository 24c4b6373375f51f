import ArenaPeak.Json.Slots
import ArenaPeak.Proofs.JsonText
import Mathlib.Data.List.Forall2

/-!
The ways in which a record is written as JSON. As an object its fields stand in any order, each once
at most, and fields that are not declared may stand between them; as an array they stand in the
order of their declaration, and some at the end may be missing. The readers accept these ways and no
others.
-/

namespace ArenaPeak.Json

/-! ### Slots -/

/-- What is written for a name in an object of some fields. -/
def valuesOf (fields : List (String × Json)) (name : String) : List Json :=
  (fields.filter (·.1 == name)).map (·.2)

/-- What stands in a record for each of its declared fields. -/
inductive Slotted (names : List String) : Json → List (Option Json) → Prop
  | obj (fields : List (String × Json)) (slots : List (Option Json))
      (each : List.Forall₂ (fun name slot => valuesOf fields name = slot.toList) names slots) :
      Slotted names (.obj fields) slots
  | arr (items : List Json) (missing : Nat) (full : items.length + missing = names.length) :
      Slotted names (.arr items) (items.map some ++ List.replicate missing none)

theorem lookup_eq_head? (name : String) (fields : List (String × Json)) :
    fields.lookup name = (valuesOf fields name).head? := by
  induction fields with
  | nil => rfl
  | cons field fields ih =>
      obtain ⟨k, j⟩ := field
      by_cases same : k = name
      · subst same
        simp [valuesOf]
      · have other : (name == k) = false := by simpa using Ne.symm same
        rw [List.lookup_cons, other, valuesOf, List.filter_cons_of_neg (by simpa using same)]
        exact ih

theorem eq_toList_iff {js : List Json} {slot : Option Json} :
    js = slot.toList ↔ js.length ≤ 1 ∧ slot = js.head? := by
  cases slot with
  | none => cases js <;> simp
  | some j =>
      cases js with
      | nil => simp
      | cons j' js => cases js <;> simp [eq_comm]

theorem fields_slots_eq_some {names : List String} {fields : List (String × Json)}
    {ss : List (Option Json)} :
    Fields.slots names fields = some ss ↔
      List.Forall₂ (fun name slot => valuesOf fields name = slot.toList) names ss := by
  have each (name : String) (slot : Option Json) : valuesOf fields name = slot.toList ↔
      fields.countP (·.1 == name) ≤ 1 ∧ fields.lookup name = slot := by
    rw [eq_toList_iff, ← lookup_eq_head?, valuesOf, List.length_map,
      ← List.countP_eq_length_filter, eq_comm (a := slot)]
  simp only [each]
  rw [List.forall₂_and_left, ← List.forall₂_map_left_iff (R := Eq), List.forall₂_eq_eq_eq,
    Fields.slots, Fields.noRepeats]
  simp

theorem slots_eq_some {names : List String} {j : Json} {ss : List (Option Json)} :
    slots names j = some ss ↔ Slotted names j ss := by
  constructor
  · intro run
    cases j with
    | obj fields => exact .obj fields ss (fields_slots_eq_some.mp run)
    | arr items =>
        rw [slots] at run
        split at run
        · next fits =>
            cases run
            exact .arr items _ (by omega)
        · cases run
    | _ => cases run
  · intro slotted
    cases slotted with
    | obj fields slots each => exact fields_slots_eq_some.mpr each
    | arr items missing full =>
        rw [slots, if_pos (by omega), ← full, Nat.add_sub_cancel_left]

theorem valuesOf_undeclared {fields : List (String × Json)} {name : String}
    (h : ∀ f ∈ fields, f.1 ≠ name) : valuesOf fields name = [] := by
  rw [valuesOf, List.map_eq_nil_iff, List.filter_eq_nil_iff]
  intro f mem
  simpa using h f mem

theorem slotted_congr {names : List String} {fields fields' : List (String × Json)}
    {ss : List (Option Json)}
    (each : List.Forall₂ (fun name slot => valuesOf fields name = slot.toList) names ss)
    (same : ∀ name ∈ names, ∀ slot : Option Json, valuesOf fields name = slot.toList →
      valuesOf fields' name = slot.toList) :
    List.Forall₂ (fun name slot => valuesOf fields' name = slot.toList) names ss :=
  ((List.forall₂_and_left names ss).mpr ⟨fun _ mem => mem, each⟩).imp
    fun name slot h => same name h.1 slot h.2

/-- Fields that are not declared, and the order of the fields, play no part. -/
theorem Slotted.shuffle {names : List String} {fields extra fields' : List (String × Json)}
    {ss : List (Option Json)} (h : Slotted names (.obj fields) ss)
    (undeclared : ∀ f ∈ extra, f.1 ∉ names) (perm : fields'.Perm (fields ++ extra)) :
    Slotted names (.obj fields') ss := by
  cases h with
  | obj _ _ each =>
      refine .obj fields' ss (slotted_congr each ?_)
      intro name declared slot values
      have others : valuesOf extra name = [] :=
        valuesOf_undeclared fun f mem eq => undeclared f mem (eq ▸ declared)
      have shuffled : (valuesOf fields' name).Perm slot.toList := by
        rw [← values, ← List.append_nil (valuesOf fields name), ← others, valuesOf, valuesOf,
          valuesOf, ← List.map_append, ← List.filter_append]
        exact (perm.filter _).map _
      cases slot with
      | none => exact List.perm_nil.mp shuffled
      | some j => exact List.perm_singleton.mp shuffled

theorem slotted_arr {names : List String} {items : List Json}
    (full : items.length = names.length) : Slotted names (.arr items) (items.map some) := by
  simpa using Slotted.arr items 0 full

theorem slotted_zip {names : List String} (distinct : names.Nodup) {items : List Json}
    (full : items.length = names.length) :
    Slotted names (.obj (names.zip items)) (items.map some) := by
  refine .obj _ _ ?_
  induction names generalizing items with
  | nil =>
      obtain rfl := List.eq_nil_of_length_eq_zero full
      exact .nil
  | cons name names ih =>
      obtain ⟨item, items, rfl⟩ := List.exists_cons_of_length_eq_add_one full
      obtain ⟨fresh, distinct⟩ := List.nodup_cons.mp distinct
      have first : valuesOf ((name, item) :: names.zip items) name = [item] := by
        have rest : valuesOf (names.zip items) name = [] :=
          valuesOf_undeclared fun f mem eq => fresh (eq ▸ (List.of_mem_zip mem).1)
        rw [valuesOf, List.filter_cons_of_pos (by simp), List.map_cons, ← valuesOf, rest]
      -- the first field says nothing of the other names, which are all different from its own
      refine .cons first (slotted_congr (ih distinct (Nat.succ.inj full)) ?_)
      intro name' declared slot values
      have other : name ≠ name' := fun eq => fresh (eq ▸ declared)
      rw [← values, valuesOf, List.zip_cons_cons, List.filter_cons_of_neg (by simpa using other)]
      rfl

/-- A record is written as what fills the slots of its declared fields. -/
def Record (names : List String) (fills : List (Option Json) → Prop) (j : Json) : Prop :=
  ∃ slots, Slotted names j slots ∧ fills slots

section Records

variable {names : List String} {fills : List (Option Json) → Prop} {items : List Json}

/-- A reader that fills a value from its slots finds it exactly in the ways to write it. -/
theorem record_eq_some {α : Type} {fill : List (Option Json) → Option α} {a : α} {j : Json}
    (each : ∀ slots, fill slots = some a ↔ fills slots) :
    (slots names j >>= fill) = some a ↔ Record names fills j := by
  rw [Option.bind_eq_bind, Option.bind_eq_some_iff, Record]
  simp only [slots_eq_some, each]

theorem not_record_null : ¬ Record names fills .null := by
  rintro ⟨_, slotted, -⟩
  cases slotted

theorem record_zip (distinct : names.Nodup) (full : items.length = names.length)
    (filled : fills (items.map some)) : Record names fills (.obj (names.zip items)) :=
  ⟨_, slotted_zip distinct full, filled⟩

theorem Record.shuffle {fields extra fields' : List (String × Json)}
    (h : Record names fills (.obj fields)) (undeclared : ∀ f ∈ extra, f.1 ∉ names)
    (perm : fields'.Perm (fields ++ extra)) : Record names fills (.obj fields') := by
  obtain ⟨slots, slotted, filled⟩ := h
  exact ⟨slots, slotted.shuffle undeclared perm, filled⟩

/-- The names of the fields may be left out. -/
theorem Record.unnamed (distinct : names.Nodup) (full : items.length = names.length)
    (h : Record names fills (.obj (names.zip items))) : Record names fills (.arr items) := by
  obtain ⟨slots, slotted, filled⟩ := h
  -- the slots of an object are determined, so they are those of the items
  have same : slots = items.map some := by
    have found := slots_eq_some.mpr slotted
    rw [slots_eq_some.mpr (slotted_zip distinct full)] at found
    exact (Option.some.inj found).symm
  exact ⟨_, slotted_arr full, same ▸ filled⟩

end Records

/-! ### Values -/

section Values

variable {α : Type} {read : Json → Option α} {Written : α → Json → Prop}

/-- A slot that may be empty, which then stands for a value of its own. -/
inductive Defaulted (default : α) (Written : α → Json → Prop) : α → Option Json → Prop
  | missing : Defaulted default Written default none
  | given (a : α) (j : Json) (written : Written a j) : Defaulted default Written a (some j)

inductive Nullable (Written : α → Json → Prop) : Option α → Json → Prop
  | null : Nullable Written none .null
  | given (a : α) (j : Json) (written : Written a j) : Nullable Written (some a) j

inductive Listed (Written : α → Json → Prop) : List α → Json → Prop
  | items (as : List α) (js : List Json) (each : List.Forall₂ Written as js) :
      Listed Written as (.arr js)

/-- A name stands alone, or as the only field of an object that holds nothing. -/
inductive NamedBy (ofName? : String → Option α) (a : α) : Json → Prop
  | alone (s : String) (named : ofName? s = some a) : NamedBy ofName? a (.str s)
  | field (s : String) (named : ofName? s = some a) : NamedBy ofName? a (.obj [(s, .null)])

theorem defaulted_eq_some (reads : ∀ a j, read j = some a ↔ Written a j) {default a : α}
    {slot : Option Json} :
    defaulted default read slot = some a ↔ Defaulted default Written a slot := by
  constructor
  · intro run
    cases slot with
    | none =>
        cases run
        exact .missing
    | some j => exact .given a j ((reads a j).mp run)
  · intro h
    cases h with
    | missing => rfl
    | given a j written => exact (reads a j).mpr written

theorem nullable_eq_some (reads : ∀ a j, read j = some a ↔ Written a j)
    (nonnull : ∀ a, ¬ Written a .null) (o : Option α) (j : Json) :
    nullable read j = some o ↔ Nullable Written o j := by
  constructor
  · intro run
    rw [nullable.eq_def] at run
    split at run
    · cases run
      exact .null
    · obtain ⟨a, found, rfl⟩ := Option.map_eq_some_iff.mp run
      exact .given a j ((reads a j).mp found)
  · intro h
    cases h with
    | null => rfl
    | given a j written =>
        rw [nullable, (reads a j).mpr written]
        · rfl
        · rintro rfl
          exact nonnull a written

theorem mapM_eq_some {items : List Json} {as : List α} :
    items.mapM read = some as ↔ List.Forall₂ (fun a j => read j = some a) as items := by
  induction items generalizing as with
  | nil => cases as <;> simp [eq_comm]
  | cons j items ih =>
      rw [List.mapM_cons]
      cases first : read j with
      | none => cases as <;> simp [first]
      | some a =>
          cases rest : items.mapM read with
          | none => cases as <;> simp [← ih, rest]
          | some as' => cases as <;> simp [← ih, rest, first]

theorem list?_eq_some (reads : ∀ a j, read j = some a ↔ Written a j) (as : List α) (j : Json) :
    list? read j = some as ↔ Listed Written as j := by
  constructor
  · intro run
    cases j with
    | arr items =>
        exact .items as items ((mapM_eq_some.mp run).imp fun a j => (reads a j).mp)
    | _ => cases run
  · intro h
    cases h with
    | items js each => exact mapM_eq_some.mpr (each.imp fun a j => (reads a j).mpr)

theorem name?_eq_some (ofName? : String → Option α) (a : α) (j : Json) :
    name? ofName? j = some a ↔ NamedBy ofName? a j := by
  constructor
  · intro run
    rw [name?.eq_def] at run
    split at run
    · exact .alone _ run
    · exact .field _ run
    · cases run
  · intro h
    cases h with
    | alone s named => exact named
    | field s named => exact named

theorem required_eq_some (reads : ∀ a j, read j = some a ↔ Written a j) {a : α}
    {slot : Option Json} : required read slot = some a ↔ ∃ j, slot = some j ∧ Written a j := by
  rw [required, Option.bind_eq_some_iff]
  simp only [reads]

end Values

theorem bool?_eq_some (b : Bool) (j : Json) : bool? j = some b ↔ j = .bool b := by
  cases j <;> simp [bool?]

theorem str?_eq_some (s : String) (j : Json) : str? j = some s ↔ j = .str s := by
  cases j <;> simp [str?]

theorem natBelow?_eq_some {bound n : Nat} {j : Json} :
    natBelow? bound j = some n ↔ n < bound ∧ j = .int n := by
  cases j with
  | int m =>
      simp only [natBelow?, Json.int.injEq]
      split
      · next fits =>
          simp only [Bool.and_eq_true, decide_eq_true_eq] at fits
          simp only [Option.some.injEq]
          omega
      · next wide =>
          simp only [Bool.and_eq_true, decide_eq_true_eq] at wide
          simp only [reduceCtorEq, false_iff]
          omega
  | _ => simp [natBelow?]

theorem word?_eq_some (w : UInt64) (j : Json) : word? j = some w ↔ j = ofWord w := by
  rw [word?, ofWord, Option.map_eq_some_iff]
  simp only [natBelow?_eq_some]
  constructor
  · rintro ⟨n, ⟨fits, rfl⟩, rfl⟩
    rw [UInt64.toNat_ofNat_of_lt' fits]
  · rintro rfl
    exact ⟨w.toNat, ⟨w.toNat_lt_size, rfl⟩, UInt64.ofNat_toNat⟩

theorem halfWord?_eq_some (w : UInt32) (j : Json) : halfWord? j = some w ↔ j = ofHalfWord w := by
  rw [halfWord?, ofHalfWord, Option.map_eq_some_iff]
  simp only [natBelow?_eq_some]
  constructor
  · rintro ⟨n, ⟨fits, rfl⟩, rfl⟩
    rw [UInt32.toNat_ofNat_of_lt' fits]
  · rintro rfl
    exact ⟨w.toNat, ⟨w.toNat_lt_size, rfl⟩, UInt32.ofNat_toNat⟩

theorem signedWord?_eq_some (d : Int64) (j : Json) :
    signedWord? j = some d ↔ j = ofSignedWord d := by
  cases j with
  | int n =>
      simp only [signedWord?, ofSignedWord, Json.int.injEq]
      split
      · next fits =>
          simp only [Bool.and_eq_true, decide_eq_true_eq] at fits
          have high : Int64.maxValue.toInt < 2 ^ 63 := Int64.toInt_lt _
          rw [Option.some.injEq]
          constructor
          · rintro rfl
            exact (Int64.toInt_ofInt_of_le fits.1 (Int.lt_of_le_of_lt fits.2 high)).symm
          · rintro rfl
            exact Int64.ofInt_toInt d
      · next wide =>
          simp only [Bool.and_eq_true, decide_eq_true_eq] at wide
          simp only [reduceCtorEq, false_iff]
          rintro rfl
          exact wide ⟨d.minValue_le_toInt, d.toInt_le⟩
  | _ => simp [signedWord?, ofSignedWord]

end ArenaPeak.Json
