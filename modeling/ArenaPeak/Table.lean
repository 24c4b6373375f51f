import ArenaPeak.Record

/-!
The table of records: one record for each method, in the order in which the methods were first
committed. Methods are told apart by identity, never by their hash or their text.
-/

namespace ArenaPeak

structure StatTable where
  records : List StatRecord
  deriving DecidableEq

namespace StatTable

def empty : StatTable :=
  ⟨[]⟩

/-- The records with a commit applied to the method's record, made anew if there is none. -/
def upsertIn (m : Method) (c : Commit) : List StatRecord → List StatRecord
  | [] => [(StatRecord.fresh m).apply c]
  | r :: rs => if r.method.same m then r.apply c :: rs else r :: upsertIn m c rs

def upsert (t : StatTable) (m : Method) (c : Commit) : StatTable :=
  ⟨upsertIn m c t.records⟩

def get? (t : StatTable) (m : Method) : Option StatRecord :=
  t.records.find? (·.method.same m)

theorem find?_upsertIn_self (m : Method) (c : Commit) (rs : List StatRecord) :
    (upsertIn m c rs).find? (·.method.same m) =
      some (((rs.find? (·.method.same m)).getD (.fresh m)).apply c) := by
  induction rs with
  | nil => simp [upsertIn, StatRecord.apply, StatRecord.fresh, Method.same]
  | cons r rs ih =>
      by_cases h : r.method.same m
      · simp [upsertIn, StatRecord.apply, h]
      · simp [upsertIn, h, ih]

theorem find?_upsertIn_of_ne {m n : Method} (c : Commit) (rs : List StatRecord)
    (h : m.same n = false) :
    (upsertIn m c rs).find? (·.method.same n) = rs.find? (·.method.same n) := by
  induction rs with
  | nil => simp [upsertIn, StatRecord.apply, StatRecord.fresh, h]
  | cons r rs ih =>
      by_cases hr : r.method.same m
      · have other : r.method.same n = false := by
          simp only [Method.same, beq_iff_eq] at hr h ⊢
          rw [hr]; exact h
        simp [upsertIn, StatRecord.apply, hr, other]
      · simp only [upsertIn, hr, Bool.false_eq_true, if_false, List.find?_cons, ih]

/-- After a commit the record of its method is the old one, or a fresh one, with it applied. -/
theorem get?_upsert_self (t : StatTable) (m : Method) (c : Commit) :
    (t.upsert m c).get? m = some (((t.get? m).getD (.fresh m)).apply c) :=
  find?_upsertIn_self m c t.records

theorem get?_upsert_of_ne (t : StatTable) {m n : Method} (c : Commit) (h : m.same n = false) :
    (t.upsert m c).get? n = t.get? n :=
  find?_upsertIn_of_ne c t.records h

def size (t : StatTable) : Nat :=
  t.records.length

def snapshot (t : StatTable) (minSize : UInt64) : List StatRecord :=
  t.records.filter fun r => minSize ≤ r.total

theorem snapshot_zero (t : StatTable) : t.snapshot 0 = t.records := by
  simp [snapshot]

/-- What a debug build holds a snapshot to: without a bound it is all records. -/
def audit (f : Flavour) (t : StatTable) (minSize : UInt64) : Except Violation Unit :=
  f.assert (decide (0 < minSize) || (t.snapshot minSize).length == t.size) .incompleteSnapshot

theorem audit_eq (f : Flavour) (t : StatTable) (minSize : UInt64) : t.audit f minSize = .ok () := by
  have complete : (decide (0 < minSize) || (t.snapshot minSize).length == t.size) = true := by
    by_cases zero : minSize = 0
    · subst zero
      simp [snapshot_zero, size]
    · simp [UInt64.pos_iff_ne_zero, zero]
  rw [audit, complete, Flavour.assert_true]

/-- Largest total first; records of equal total keep their order. -/
def sortBySize (records : List StatRecord) : List StatRecord :=
  records.mergeSort fun a b => b.total ≤ a.total

end StatTable

end ArenaPeak
