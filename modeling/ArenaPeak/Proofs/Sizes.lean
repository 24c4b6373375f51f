import ArenaPeak.Proofs.Rows
import ArenaPeak.Size

/-!
Byte counts with a unit, read back. What is shown is the count with less than one unit cut off, and
since the unit is one of which there are at least a hundred, that is at most one percent. A larger
count never shows as less, also where the unit changes, so a report whose totals go down shows
totals that go down.
-/

namespace ArenaPeak

/-! ### Units -/

namespace SizeUnit

theorem bytes_pos (u : SizeUnit) : 0 < u.bytes := by
  cases u <;> decide

/-- The unit of a count is the byte, or there are at least a hundred of it. -/
theorem hundred_of (n : Nat) : of n = .byte ∨ 100 * (of n).bytes ≤ n := by
  rw [of]
  split
  · next reached => exact .inr reached
  · split
    · next reached => exact .inr reached
    · split
      · next reached => exact .inr reached
      · exact .inl rfl

/-- No larger unit has a hundred in the count. -/
theorem bytes_le_of {u : SizeUnit} {n : Nat} (reached : 100 * u.bytes ≤ n) :
    u.bytes ≤ (of n).bytes := by
  rw [of]
  split
  · cases u <;> decide
  · next noGiga =>
      split
      · cases u with
        | giga => exact absurd reached noGiga
        | byte | kilo | mega => decide
      · next noMega =>
          split
          · cases u with
            | giga => exact absurd reached noGiga
            | mega => exact absurd reached noMega
            | byte | kilo => decide
          · next noKilo =>
              cases u with
              | giga => exact absurd reached noGiga
              | mega => exact absurd reached noMega
              | kilo => exact absurd reached noKilo
              | byte => decide

end SizeUnit

/-! ### Sizes -/

namespace Size

/-- The number of bytes that is shown. -/
def worth (s : Size) : Nat :=
  s.amount * s.unit.bytes

theorem unit_of (b : UInt64) : (of b).unit = SizeUnit.of b.toNat :=
  rfl

theorem worth_of (b : UInt64) :
    (of b).worth = b.toNat / (of b).unit.bytes * (of b).unit.bytes :=
  rfl

theorem worth_le (b : UInt64) : (of b).worth ≤ b.toNat :=
  Nat.div_mul_le_self _ _

theorem lt_worth (b : UInt64) : b.toNat < (of b).worth + (of b).unit.bytes := by
  have rest := Nat.mod_lt b.toNat (of b).unit.bytes_pos
  have parts := Nat.div_add_mod' b.toNat (of b).unit.bytes
  rw [worth_of]
  omega

theorem hundred_le_amount {b : UInt64} (reached : 100 * (of b).unit.bytes ≤ b.toNat) :
    100 ≤ (of b).amount :=
  (Nat.le_div_iff_mul_le (of b).unit.bytes_pos).mpr reached

theorem worth_mono {a b : UInt64} (le : a ≤ b) : (of a).worth ≤ (of b).worth := by
  have le : a.toNat ≤ b.toNat := UInt64.le_iff_toNat_le.mp le
  have units : (of a).unit.bytes ≤ (of b).unit.bytes := by
    cases SizeUnit.hundred_of a.toNat with
    | inl byte =>
        rw [unit_of a, byte]
        exact (of b).unit.bytes_pos
    | inr reached => exact SizeUnit.bytes_le_of (reached.trans le)
  cases Nat.eq_or_lt_of_le units with
  | inl same =>
      rw [worth_of, worth_of, same]
      exact Nat.mul_le_mul_right _ (Nat.div_le_div_right le)
  | inr less =>
      -- the larger count has a hundred of its unit and the smaller one has not
      have few : a.toNat < 100 * (of b).unit.bytes := by
        by_contra reached
        have := SizeUnit.bytes_le_of (Nat.le_of_not_lt reached)
        exact absurd this (Nat.not_le_of_lt less)
      have many : 100 * (of b).unit.bytes ≤ b.toNat := by
        cases SizeUnit.hundred_of b.toNat with
        | inl byte =>
            rw [unit_of b, byte] at less
            exact absurd (of a).unit.bytes_pos (Nat.not_lt_of_le (Nat.le_of_lt_succ less))
        | inr reached => exact reached
      calc (of a).worth ≤ a.toNat := worth_le a
        _ ≤ 100 * (of b).unit.bytes := few.le
        _ ≤ (of b).worth := Nat.mul_le_mul_right _ (hundred_le_amount many)

/-! ### Reading -/

/-- The bytes of a unit, by its letter. -/
def unitBytes? : Char → Option Nat
  | 'B' => some 1
  | 'K' => some (2 ^ 10)
  | 'M' => some (2 ^ 20)
  | 'G' => some (2 ^ 30)
  | _ => none

/-- Reads a decimal number and the unit behind it. -/
def read? (text : String) : Option (Nat × Nat) := do
  let unit ← text.toList.getLast?.bind unitBytes?
  let value ← Text.decimal? (String.ofList text.toList.dropLast)
  return (value, unit)

/-- Reads the number of bytes that a text shows. -/
def bytes? (text : String) : Option Nat :=
  (read? text).map fun (value, unit) => value * unit

theorem read?_text (s : Size) : read? s.text = some (s.amount, s.unit.bytes) := by
  obtain ⟨letter, chars, bytes⟩ :
      ∃ c, s.unit.letter.toList = [c] ∧ unitBytes? c = some s.unit.bytes := by
    cases s.unit <;> exact ⟨_, rfl, rfl⟩
  have text : s.text.toList = (toString s.amount).toList ++ [letter] := by
    rw [Size.text, String.toList_append, chars]
  rw [read?, text, List.getLast?_concat, List.dropLast_concat, String.ofList_toList,
    Text.decimal?_toString, Option.bind_some, bytes]
  rfl

theorem bytes?_text (s : Size) : bytes? s.text = some s.worth := by
  rw [bytes?, read?_text]
  rfl

/-- A value of a unit is what is shown of a count. -/
structure Shows (value unit b : Nat) : Prop where
  le : value * unit ≤ b
  lt : b < value * unit + unit
  /-- Below a hundred kilobytes nothing is cut off. -/
  exact : b < 100 * 2 ^ 10 → value * unit = b
  percent : 100 * (b - value * unit) ≤ b
  hundred : unit ≠ 1 → 100 ≤ value

theorem shows_of (b : UInt64) : Shows (of b).amount (of b).unit.bytes b.toNat := by
  have le : (of b).amount * (of b).unit.bytes ≤ b.toNat := worth_le b
  have lt : b.toNat < (of b).amount * (of b).unit.bytes + (of b).unit.bytes := lt_worth b
  cases SizeUnit.hundred_of b.toNat with
  | inl byte =>
      have one : (of b).unit.bytes = 1 := congrArg SizeUnit.bytes byte
      rw [one] at le lt ⊢
      exact ⟨le, lt, fun _ => by omega, by omega, fun other => absurd rfl other⟩
  | inr reached =>
      have reached : 100 * (of b).unit.bytes ≤ b.toNat := reached
      refine ⟨le, lt, ?_, by omega, fun _ => hundred_le_amount reached⟩
      intro small
      have one : (of b).unit.bytes = 1 := by
        generalize (of b).unit = u at reached
        cases u with
        | byte => rfl
        | kilo | mega | giga =>
            simp only [SizeUnit.bytes] at reached
            omega
      rw [one] at le lt ⊢
      omega

end Size

/-! ### Totals of a report -/

/-- Reads the total that a row made for people shows. -/
def Row.total? (row : String) : Option Nat := do
  let parts ← Row.read? row
  let cell ← parts.cells.head?
  Size.bytes? cell

namespace StatRecord

theorem total?_row (r : StatRecord) : Row.total? (r.row true) = some (Size.of r.total).worth := by
  rw [Row.total?, read?_row]
  exact Size.bytes?_text (Size.of r.total)

/-- The rows of some records, made for people, show totals that never go up. -/
def ShowsDescending (rs : List StatRecord) : Prop :=
  ∃ totals : List Nat,
    List.Forall₂ (fun r total => Row.total? (r.row true) = some total) rs totals ∧
    totals.Pairwise fun a b => b ≤ a

theorem showsDescending_of_descending {rs : List StatRecord}
    (descending : rs.Pairwise fun a b => b.total ≤ a.total) : ShowsDescending rs := by
  refine ⟨rs.map fun r => (Size.of r.total).worth, ?_, ?_⟩
  · rw [List.forall₂_map_right_iff, List.forall₂_same]
    exact fun r _ => r.total?_row
  · rw [List.pairwise_map]
    exact descending.imp Size.worth_mono

end StatRecord

theorem Service.descending_rows (s : Service) (order : Arrangement) (minSize : UInt64) :
    (s.rows order minSize).Pairwise fun a b => b.total ≤ a.total := by
  cases enabled : s.enabled with
  | false =>
      rw [rows, reportLines_off enabled]
      exact .nil
  | true =>
      cases there : s.table with
      | none =>
          rw [rows_bare enabled there]
          exact .nil
      | some t =>
          rw [rows_on ⟨enabled, there⟩]
          exact (t.lists_listing order minSize).descending

/-- What is shown of a byte count is the count up to one percent, and more bytes never show as
fewer, so the totals of records that are sorted, as in a report, never go up. -/
theorem Size.shown_faithfully :
    (∀ b : UInt64, ∃ value unit, read? (of b).text = some (value, unit) ∧
      Shows value unit b.toNat) ∧
    (∀ a b : UInt64, a ≤ b → ∃ shown shown', bytes? (of a).text = some shown ∧
      bytes? (of b).text = some shown' ∧ shown ≤ shown') ∧
    (∀ rs : List StatRecord, StatRecord.ShowsDescending (StatTable.sortBySize rs)) ∧
    ∀ (s : Service) (order : Arrangement) (minSize : UInt64),
      StatRecord.ShowsDescending (s.rows order minSize) := by
  refine ⟨?_, ?_, ?_, ?_⟩
  · exact fun b => ⟨_, _, (of b).read?_text, shows_of b⟩
  · exact fun a b le => ⟨_, _, (of a).bytes?_text, (of b).bytes?_text, worth_mono le⟩
  · intro rs
    exact StatRecord.showsDescending_of_descending (StatTable.descending_sortBySize rs)
  · intro s order minSize
    exact StatRecord.showsDescending_of_descending (s.descending_rows order minSize)

/-- A megabyte count takes over from kilobytes without a step down. -/
theorem Size.shown_faithfully_megabytes :
    ∃ shown shown', bytes? "102399K" = some shown ∧ bytes? "100M" = some shown' ∧
      shown ≤ shown' := by
  have less : (of 104857599).text = "102399K" := by decide +kernel
  have more : (of 104857600).text = "100M" := by decide +kernel
  rw [← less, ← more]
  exact shown_faithfully.2.1 104857599 104857600 (by decide)

end ArenaPeak
