import ArenaPeak.Report

/-!
The records that a report lists. They are sorted by total, and the sort keeps the order in which the
table gives them among equal totals; no other rearrangement does both. So it does not matter whether
records are left out before the sort or after it, and a higher bound cuts the list off earlier.
-/

namespace ArenaPeak

/-! ### Stable sorting -/

section

variable {α : Type} {le : α → α → Bool}
variable (trans : ∀ a b c, le a b = true → le b c = true → le a c = true)
variable (total : ∀ a b, (le a b || le b a) = true)

include trans total

/-- The first of a list is sorted in after all that are less and before all others. -/
theorem mergeSort_cons_filter (a : α) (l : List α) :
    (a :: l).mergeSort le =
        (l.mergeSort le).filter (fun b => !le a b) ++ a :: (l.mergeSort le).filter (le a) ∧
      l.mergeSort le =
        (l.mergeSort le).filter (fun b => !le a b) ++ (l.mergeSort le).filter (le a) := by
  obtain ⟨l₁, l₂, sorted, rest, less⟩ := List.mergeSort_cons trans total a l
  have above : ∀ b ∈ l₂, le a b = true := by
    have ordered := List.pairwise_mergeSort trans total (a :: l)
    rw [sorted, List.pairwise_append] at ordered
    exact (List.pairwise_cons.mp ordered.2.1).1
  have none₁ : l₁.filter (le a) = [] := by
    rw [List.filter_eq_nil_iff]
    intro b mem
    simpa using less b mem
  have none₂ : l₂.filter (fun b => !le a b) = [] := by
    rw [List.filter_eq_nil_iff]
    intro b mem
    simpa using above b mem
  have first : (l.mergeSort le).filter (fun b => !le a b) = l₁ := by
    rw [rest, List.filter_append, List.filter_eq_self.mpr less, none₂, List.append_nil]
  have second : (l.mergeSort le).filter (le a) = l₂ := by
    rw [rest, List.filter_append, none₁, List.filter_eq_self.mpr above, List.nil_append]
  rw [first, second]
  exact ⟨sorted, rest⟩

/-- Leaving something out before sorting or after it makes no difference. -/
theorem mergeSort_filter (p : α → Bool) (l : List α) :
    (l.filter p).mergeSort le = (l.mergeSort le).filter p := by
  induction l with
  | nil => simp
  | cons a l ih =>
      obtain ⟨sorted, rest⟩ := mergeSort_cons_filter trans total a l
      rw [sorted, List.filter_append, List.filter_cons, List.filter_cons]
      -- the place of `a` is given by filters, and filters commute with `p`
      cases p a with
      | true =>
          rw [if_pos rfl, if_pos rfl, (mergeSort_cons_filter trans total a _).1, ih]
          simp only [List.filter_filter, Bool.and_comm]
      | false =>
          rw [if_neg Bool.false_ne_true, if_neg Bool.false_ne_true, ih, ← List.filter_append,
            ← rest]

end

/-- A list in descending order, cut off at a bound. -/
theorem filter_prefix_of_descending {α : Type} (size : α → UInt64) {l : List α}
    (descending : l.Pairwise fun a b => size b ≤ size a) (bound : UInt64) :
    l.filter (fun a => decide (bound ≤ size a)) <+: l := by
  induction descending with
  | nil => exact List.nil_prefix
  | @cons a l first descending ih =>
      by_cases reaches : bound ≤ size a
      · rw [List.filter_cons_of_pos (by simpa using reaches)]
        exact List.cons_prefix_cons.mpr ⟨rfl, ih⟩
      · have none : l.filter (fun b => decide (bound ≤ size b)) = [] := by
          rw [List.filter_eq_nil_iff]
          intro b mem
          rw [decide_eq_true_eq]
          exact fun above => reaches (UInt64.le_trans above (first b mem))
        rw [List.filter_cons_of_neg (by simpa using reaches), none]
        exact List.nil_prefix

/-! ### Sorting by size -/

section

variable {α : Type} {key : α → UInt64} {l l' : List α}

theorem mem_iff_of_filter_eq (same : ∀ k, l.filter (key · == k) = l'.filter (key · == k)) (a : α) :
    a ∈ l ↔ a ∈ l' := by
  have own := congrArg (a ∈ ·) (same (key a))
  simpa using own

/-- A list in which keys never go up is known from what it has under each key. -/
theorem eq_of_filter_eq (descending : l.Pairwise fun a b => key b ≤ key a)
    (descending' : l'.Pairwise fun a b => key b ≤ key a)
    (same : ∀ k, l.filter (key · == k) = l'.filter (key · == k)) : l = l' := by
  induction l generalizing l' with
  | nil =>
      cases l' with
      | nil => rfl
      | cons b l' => exact absurd ((mem_iff_of_filter_eq same b).mpr List.mem_cons_self) (by simp)
  | cons a l ih =>
      cases l' with
      | nil => exact absurd ((mem_iff_of_filter_eq same a).mp List.mem_cons_self) (by simp)
      | cons b l' =>
          rw [List.pairwise_cons] at descending descending'
          have highest : key a ≤ key b := by
            cases List.mem_cons.mp ((mem_iff_of_filter_eq same a).mp List.mem_cons_self) with
            | inl eq => exact eq ▸ UInt64.le_refl _
            | inr mem => exact descending'.1 a mem
          have highest' : key b ≤ key a := by
            cases List.mem_cons.mp ((mem_iff_of_filter_eq same b).mpr List.mem_cons_self) with
            | inl eq => exact eq ▸ UInt64.le_refl _
            | inr mem => exact descending.1 b mem
          have keys : key a = key b := UInt64.le_antisymm highest highest'
          have heads := same (key a)
          rw [List.filter_cons_of_pos (by simp), List.filter_cons_of_pos (by simp [keys]),
            List.cons.injEq] at heads
          obtain ⟨rfl, -⟩ := heads
          refine congrArg (a :: ·) (ih descending.2 descending'.2 fun k => ?_)
          have rest := same k
          by_cases here : key a = k
          · rw [List.filter_cons_of_pos (by simp [here]), List.filter_cons_of_pos (by simp [here]),
              List.cons.injEq] at rest
            exact rest.2
          · rwa [List.filter_cons_of_neg (by simp [here]),
              List.filter_cons_of_neg (by simp [here])] at rest

end

namespace StatRecord

theorem larger_trans (a b c : StatRecord) (ab : decide (b.total ≤ a.total) = true)
    (bc : decide (c.total ≤ b.total) = true) : decide (c.total ≤ a.total) = true := by
  rw [decide_eq_true_eq] at ab bc ⊢
  exact UInt64.le_trans bc ab

theorem larger_total (a b : StatRecord) :
    (decide (b.total ≤ a.total) || decide (a.total ≤ b.total)) = true := by
  rw [Bool.or_eq_true, decide_eq_true_eq, decide_eq_true_eq]
  exact UInt64.le_total b.total a.total

end StatRecord

namespace StatTable

open StatRecord

variable {t : StatTable} {minSize minSize' : UInt64}

theorem descending_sortBySize (rs : List StatRecord) :
    (sortBySize rs).Pairwise fun a b => b.total ≤ a.total :=
  (List.pairwise_mergeSort larger_trans larger_total rs).imp of_decide_eq_true

/-- A rearrangement in which totals never go up and records of equal total keep their order. -/
structure Ranks (rs sorted : List StatRecord) : Prop where
  perm : sorted.Perm rs
  descending : sorted.Pairwise fun a b => b.total ≤ a.total
  stable : ∀ total, sorted.filter (·.total == total) = rs.filter (·.total == total)

theorem ranks_sortBySize (rs : List StatRecord) : Ranks rs (sortBySize rs) where
  perm := List.mergeSort_perm _ _
  descending := descending_sortBySize rs
  stable total := by
    rw [sortBySize, ← mergeSort_filter StatRecord.larger_trans StatRecord.larger_total]
    refine List.mergeSort_of_pairwise (List.pairwise_of_forall_mem_list ?_)
    intro a mem b mem'
    have totals : a.total = total ∧ b.total = total :=
      ⟨by simpa using (List.mem_filter.mp mem).2, by simpa using (List.mem_filter.mp mem').2⟩
    rw [totals.1, totals.2]
    exact decide_eq_true (UInt64.le_refl total)

theorem ranks_iff {rs sorted : List StatRecord} : Ranks rs sorted ↔ sorted = sortBySize rs := by
  constructor
  · intro ranks
    refine eq_of_filter_eq ranks.descending (descending_sortBySize rs) fun total => ?_
    exact (ranks.stable total).trans ((ranks_sortBySize rs).stable total).symm
  · rintro rfl
    exact ranks_sortBySize rs

/-- A list shows the records of at least so many bytes, each once, largest total first, and equal
totals in the order in which the table gives them. -/
structure Lists (t : StatTable) (order : Arrangement) (minSize : UInt64) (rs : List StatRecord) :
    Prop where
  exact : rs.Perm (t.records.filter fun r => minSize ≤ r.total)
  descending : rs.Pairwise fun a b => b.total ≤ a.total
  ties : ∀ total, rs.filter (·.total == total) =
    ((order.arrange t.records).filter fun r => minSize ≤ r.total).filter (·.total == total)

theorem lists_listing (t : StatTable) (order : Arrangement) (minSize : UInt64) :
    t.Lists order minSize (t.listing order minSize) := by
  have ranks := ranks_sortBySize ((t.arranged order).snapshot minSize)
  exact ⟨ranks.perm.trans ((order.perm t.records).filter _), ranks.descending, ranks.stable⟩

theorem listing_filter (t : StatTable) (order : Arrangement) (higher : minSize ≤ minSize') :
    t.listing order minSize' = (t.listing order minSize).filter fun r => minSize' ≤ r.total := by
  have kept (rs : StatTable) :
      rs.snapshot minSize' = (rs.snapshot minSize).filter fun r => minSize' ≤ r.total := by
    rw [snapshot, snapshot, List.filter_filter]
    refine List.filter_congr fun r _ => ?_
    rw [← Bool.decide_and, decide_eq_decide]
    exact (and_iff_left_of_imp fun above => UInt64.le_trans higher above).symm
  rw [listing, listing, sortBySize, sortBySize, kept, mergeSort_filter larger_trans larger_total]

/-- A higher bound cuts the list off earlier. -/
theorem listing_prefix (t : StatTable) (order : Arrangement) (higher : minSize ≤ minSize') :
    t.listing order minSize' <+: t.listing order minSize := by
  rw [listing_filter t order higher]
  exact filter_prefix_of_descending StatRecord.total (t.lists_listing order minSize).descending
    minSize'

end StatTable

end ArenaPeak
