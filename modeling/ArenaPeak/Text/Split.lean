/-!
Cutting a text at a separator: at its first occurrence, at its last one, or at all of them.
-/

namespace ArenaPeak.Text

def splitFirst (sep : List Char) : List Char → Option (List Char × List Char)
  | [] => none
  | c :: cs =>
      if sep.isPrefixOf (c :: cs) then some ([], (c :: cs).drop sep.length)
      else (splitFirst sep cs).map fun (before, after) => (c :: before, after)

def splitLast (sep : Char) : List Char → Option (List Char × List Char)
  | [] => none
  | c :: cs =>
      match splitLast sep cs with
      | some (before, after) => some (c :: before, after)
      | none => if c = sep then some ([], cs) else none

/-- The parts between all occurrences of `sep`; a text without it is its own only part. -/
def splitAll (sep : Char) : List Char → List (List Char)
  | [] => [[]]
  | c :: cs =>
      if c = sep then [] :: splitAll sep cs
      else
        match splitAll sep cs with
        | [] => [[c]]
        | part :: parts => (c :: part) :: parts

/-- Whether `run` occurs in a text as a run of neighbouring characters. -/
def hasRun (run : List Char) : List Char → Bool
  | [] => run.isEmpty
  | c :: cs => run.isPrefixOf (c :: cs) || hasRun run cs

/-- Cutting loses nothing but the separator. -/
theorem eq_of_splitFirst {sep cs before after : List Char}
    (h : splitFirst sep cs = some (before, after)) : cs = before ++ sep ++ after := by
  induction cs generalizing before with
  | nil => simp [splitFirst] at h
  | cons c cs ih =>
      rw [splitFirst] at h
      split at h
      · next hp =>
          obtain ⟨rest, hr⟩ := List.isPrefixOf_iff_prefix.1 hp
          simp only [Option.some.injEq, Prod.mk.injEq] at h
          obtain ⟨rfl, rfl⟩ := h
          simp [← hr]
      · obtain ⟨⟨b, a⟩, hb, he⟩ := Option.map_eq_some_iff.1 h
        simp only [Prod.mk.injEq] at he
        obtain ⟨rfl, rfl⟩ := he
        simp [ih hb]

theorem not_mem_of_splitLast_none {sep : Char} {cs : List Char} (h : splitLast sep cs = none) :
    sep ∉ cs := by
  induction cs with
  | nil => simp
  | cons c cs ih =>
      rw [splitLast] at h
      split at h
      · simp at h
      · next hn =>
          split at h
          · simp at h
          · next hc => simp [ih hn, Ne.symm hc]

/-- After a cut at the last separator none is left behind it. -/
theorem eq_of_splitLast {sep : Char} {cs before after : List Char}
    (h : splitLast sep cs = some (before, after)) :
    cs = before ++ sep :: after ∧ sep ∉ after := by
  induction cs generalizing before after with
  | nil => simp [splitLast] at h
  | cons c cs ih =>
      rw [splitLast] at h
      split at h
      · next b a hb =>
          simp only [Option.some.injEq, Prod.mk.injEq] at h
          obtain ⟨rfl, rfl⟩ := h
          have ⟨e, n⟩ := ih hb
          exact ⟨by simp [e], n⟩
      · next hn =>
          split at h
          · next hc =>
              simp only [Option.some.injEq, Prod.mk.injEq] at h
              obtain ⟨rfl, rfl⟩ := h
              exact ⟨by simp [hc], not_mem_of_splitLast_none hn⟩
          · simp at h

theorem splitAll_ne_nil (sep : Char) (cs : List Char) : splitAll sep cs ≠ [] := by
  induction cs with
  | nil => simp [splitAll]
  | cons c cs ih =>
      rw [splitAll]
      split
      · simp
      · split <;> simp

end ArenaPeak.Text
