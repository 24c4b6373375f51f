import ArenaPeak.Proofs.Ledger
import ArenaPeak.Proofs.Reports

/-!
Tables that come about by commits alone, what is selected from them, and in which order. Of all
commits to a method the latest decides whether its record is large enough, and whatever went before,
the record is selected once. Sorting by size is told by what it leaves: totals that never go up, and
equal totals in the order in which they came; no other rearrangement does both.
-/

namespace ArenaPeak

namespace StatTable

variable {t : StatTable} {m m' : Method} {commits : List (Method × Commit)} {minSize : UInt64}

/-! ### Tables of commits -/

/-- The table after some commits, of which the first comes first. -/
def ofCommits (commits : List (Method × Commit)) : StatTable :=
  commits.foldl (fun t entry => t.upsert entry.1 entry.2) empty

/-- The commits to a method, the newest first. -/
def commitsTo (m : Method) (commits : List (Method × Commit)) : List Commit :=
  ((commits.filter (·.1.same m)).map (·.2)).reverse

theorem ofCommits_snoc (commits : List (Method × Commit)) (m : Method) (c : Commit) :
    ofCommits (commits ++ [(m, c)]) = (ofCommits commits).upsert m c := by
  rw [ofCommits, List.foldl_append]
  rfl

theorem commitsTo_snoc (m : Method) (commits : List (Method × Commit)) (m' : Method) (c : Commit) :
    commitsTo m (commits ++ [(m', c)]) =
      if m'.same m = true then c :: commitsTo m commits else commitsTo m commits := by
  rw [commitsTo, commitsTo, List.filter_append]
  split
  · next same => simp [same]
  · next other => simp [other]

/-- Methods that are the same have the same record. -/
theorem get?_congr (t : StatTable) (same : m'.same m = true) : t.get? m = t.get? m' := by
  rw [Method.same, beq_iff_eq] at same
  rw [get?, get?]
  simp only [Method.same, same]

/-- The record of a method has the number of the commits to it and the content of the latest. -/
theorem tells_ofCommits (commits : List (Method × Commit)) (m : Method) :
    Ledger.Tells ((ofCommits commits).get? m) (commitsTo m commits) := by
  induction commits using List.reverseRecOn with
  | nil => rfl
  | append_singleton commits entry ih =>
      obtain ⟨m', c⟩ := entry
      rw [ofCommits_snoc, commitsTo_snoc]
      split
      · next same =>
          rw [get?_congr _ same] at ih ⊢
          rw [get?_upsert_self]
          exact Ledger.tells_cons ih m' c
      · next other =>
          rw [get?_upsert_of_ne _ c (Bool.eq_false_iff.mpr other)]
          exact ih

theorem distinct_ofCommits (commits : List (Method × Commit)) : (ofCommits commits).Distinct := by
  induction commits using List.reverseRecOn with
  | nil => exact List.Pairwise.nil
  | append_singleton commits entry ih =>
      rw [ofCommits_snoc]
      exact distinct_upsert ih entry.1 entry.2

/-! ### Snapshots -/

/-- The records of a method are the one that is found under it. -/
theorem filter_records (distinct : t.Distinct) (m : Method) :
    t.records.filter (·.method.same m) = (t.get? m).toList := by
  obtain ⟨rs⟩ := t
  rw [get?]
  simp only [Distinct] at distinct ⊢
  induction rs with
  | nil => rfl
  | cons r rs ih =>
      rw [List.pairwise_cons] at distinct
      by_cases same : r.method.same m = true
      · have others : rs.filter (·.method.same m) = [] := by
          rw [List.filter_eq_nil_iff]
          intro r' mem same'
          have apart := distinct.1 r' mem
          rw [Method.same, beq_iff_eq] at same same'
          rw [Method.same, same, same', beq_self_eq_true] at apart
          cases apart
        simp [same, others]
      · simp only [List.filter_cons, List.find?_cons, same, Bool.false_eq_true, if_false,
          ih distinct.2]

theorem filter_snapshot (distinct : t.Distinct) (minSize : UInt64) (m : Method) :
    (t.snapshot minSize).filter (·.method.same m) =
      ((t.get? m).filter fun r => minSize ≤ r.total).toList := by
  rw [snapshot, List.filter_comm, filter_records distinct]
  cases t.get? m with
  | none => rfl
  | some r => by_cases large : minSize ≤ r.total <;> simp [Option.filter, large]

/-- In a list there is a record of each method whose latest commit reaches the bound, one and no
more, with the content of that commit, and there is nothing else. -/
structure Selects (commits : List (Method × Commit)) (minSize : UInt64) (rs : List StatRecord) :
    Prop where
  once : ∀ m c older, commitsTo m commits = c :: older → minSize ≤ c.peak.total →
    ∃ r, rs.filter (·.method.same m) = [r] ∧ Ledger.Tells (some r) (c :: older)
  only : ∀ r ∈ rs, ∃ c older, commitsTo r.method commits = c :: older ∧ minSize ≤ c.peak.total

theorem selects_of_perm {rs : List StatRecord}
    (perm : rs.Perm ((ofCommits commits).snapshot minSize)) : Selects commits minSize rs where
  once m c older latest large := by
    have found := tells_ofCommits commits m
    rw [latest] at found
    obtain ⟨r, get, content⟩ := found
    refine ⟨r, ?_, r, rfl, content⟩
    have total : r.total = c.peak.total := content.2.2.2.2.1
    have picked := perm.filter (·.method.same m)
    rw [filter_snapshot (distinct_ofCommits commits), get, Option.filter_some, if_pos] at picked
    · exact List.perm_singleton.mp picked
    · rw [total]
      exact decide_eq_true large
  only r mem := by
    obtain ⟨mem, large⟩ := List.mem_filter.mp (perm.mem_iff.mp mem)
    have own : r ∈ (ofCommits commits).records.filter (·.method.same r.method) :=
      List.mem_filter.mpr ⟨mem, r.method.same_self⟩
    rw [filter_records (distinct_ofCommits commits), Option.mem_toList] at own
    have found := tells_ofCommits commits r.method
    rw [own] at found
    cases latest : commitsTo r.method commits with
    | nil =>
        rw [latest] at found
        cases found
    | cons c older =>
        rw [latest] at found
        obtain ⟨r', same, -, -, -, -, total, -⟩ := found
        cases same
        exact ⟨c, older, rfl, total ▸ of_decide_eq_true large⟩

end StatTable

/-! ### Sorting by size -/

namespace StatTable

/-- Sorting what is sorted changes nothing, since it is its own rearrangement. -/
theorem sortBySize_sortBySize (rs : List StatRecord) :
    sortBySize (sortBySize rs) = sortBySize rs :=
  (ranks_iff.mp ⟨.refl _, descending_sortBySize rs, fun _ => rfl⟩).symm

/-- A snapshot, in any order, has what the latest commits come to and reach the bound, and sorting by
size is the one stable rearrangement by total. -/
theorem selected_and_ranked (commits : List (Method × Commit)) (minSize : UInt64) :
    (∀ rs : List StatRecord, rs.Perm ((ofCommits commits).snapshot minSize) →
      Selects commits minSize rs) ∧
    ((ofCommits commits).snapshot 0).length = (ofCommits commits).size ∧
    (∀ rs sorted : List StatRecord, Ranks rs sorted ↔ sorted = sortBySize rs) ∧
    ∀ rs : List StatRecord, sortBySize (sortBySize rs) = sortBySize rs := by
  refine ⟨fun rs => selects_of_perm, ?_, fun rs sorted => ranks_iff, sortBySize_sortBySize⟩
  rw [snapshot_zero, size]

/-- A commit of so many bytes. -/
def sized (total : UInt64) : Commit :=
  ⟨.c1, ⟨total, 0, 0, 0⟩, .zero, ⟨1⟩⟩

/-- Of two methods that both had more than 15 bytes, one has fewer now and is left out. -/
theorem selected_and_ranked_overwritten :
    Selects
      [(⟨⟨0, "A"⟩, ⟨1, "a"⟩, ⟨2, "()V"⟩⟩, sized 30), (⟨⟨0, "A"⟩, ⟨3, "b"⟩, ⟨2, "()V"⟩⟩, sized 20),
        (⟨⟨0, "A"⟩, ⟨1, "a"⟩, ⟨2, "()V"⟩⟩, sized 10)]
      15 [⟨⟨⟨0, "A"⟩, ⟨3, "b"⟩, ⟨2, "()V"⟩⟩, .c1, .zero, 1, some ⟨1⟩, 20, 0, 0, 0⟩] :=
  (selected_and_ranked _ 15).1 _ (.of_eq (by decide))

end StatTable

end ArenaPeak
