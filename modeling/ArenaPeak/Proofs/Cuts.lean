import ArenaPeak.Text.Blank
import ArenaPeak.Text.Split
import Mathlib.Data.List.Infix
import Mathlib.Data.List.TakeWhile

/-!
Cuts and trims, told by what they leave. A text is cut at the first place where a separator stands
when no separator is complete in the part before it, its last character left out; it is cut at the
last place when none stands in the part after it; it is cut at all places by cutting what stands
before one of them and what stands after it. Trimming takes off what surrounds a text that neither
begins nor ends with what is trimmed.
-/

namespace ArenaPeak.Text

section Cuts

variable {sep cs before after : List Char}

/-- A separator that stands before another one ends before the other one does. -/
theorem prefix_before_iff (front : before ≠ []) :
    sep <+: before ++ sep ++ after ↔ sep <+: before ++ sep.dropLast := by
  have shorter : before ++ sep.dropLast <+: before ++ sep ++ after := by
    rw [List.append_assoc, List.prefix_append_right_inj]
    exact (List.dropLast_prefix sep).trans (List.prefix_append sep after)
  have room : sep.length ≤ (before ++ sep.dropLast).length := by
    have := List.length_pos_iff.mpr front
    rw [List.length_append, List.length_dropLast]
    omega
  exact ⟨fun h => List.prefix_of_prefix_length_le h shorter room, fun h => h.trans shorter⟩

theorem not_infix_of_splitFirst (there : sep ≠ []) (h : splitFirst sep cs = some (before, after)) :
    ¬ sep <:+: before ++ sep.dropLast := by
  induction cs generalizing before with
  | nil => cases h
  | cons c cs ih =>
      rw [splitFirst] at h
      split at h
      · cases h
        intro occurs
        have fits := occurs.length_le
        rw [List.nil_append, List.length_dropLast] at fits
        have := List.length_pos_iff.mpr there
        omega
      · next absent =>
          obtain ⟨⟨b, a⟩, found, same⟩ := Option.map_eq_some_iff.mp h
          cases same
          rw [eq_of_splitFirst found, List.isPrefixOf_iff_prefix, ← List.cons_append,
            ← List.cons_append, prefix_before_iff (by simp)] at absent
          rw [List.cons_append, List.infix_cons_iff]
          exact not_or.mpr ⟨absent, ih found⟩

theorem splitFirst_of_not_infix (there : sep ≠ []) (first : ¬ sep <:+: before ++ sep.dropLast)
    (after : List Char) : splitFirst sep (before ++ sep ++ after) = some (before, after) := by
  induction before with
  | nil =>
      cases sep with
      | nil => exact absurd rfl there
      | cons c sep =>
          rw [List.nil_append, List.cons_append, splitFirst, if_pos]
          · simp
          · exact List.isPrefixOf_iff_prefix.mpr (List.prefix_append (c :: sep) after)
  | cons c before ih =>
      rw [List.cons_append, List.infix_cons_iff, not_or, ← List.cons_append,
        ← prefix_before_iff (by simp), List.cons_append, List.cons_append] at first
      rw [List.cons_append, List.cons_append, splitFirst, if_neg, ih first.2]
      · rfl
      · rw [List.isPrefixOf_iff_prefix]
        exact first.1

/-- The cut at the first separator. -/
theorem splitFirst_eq_some (there : sep ≠ []) : splitFirst sep cs = some (before, after) ↔
    cs = before ++ sep ++ after ∧ ¬ sep <:+: before ++ sep.dropLast := by
  constructor
  · intro h
    exact ⟨eq_of_splitFirst h, not_infix_of_splitFirst there h⟩
  · rintro ⟨rfl, first⟩
    exact splitFirst_of_not_infix there first after

theorem splitFirst_eq_none (there : sep ≠ []) : splitFirst sep cs = none ↔ ¬ sep <:+: cs := by
  induction cs with
  | nil => simpa [splitFirst] using there
  | cons c cs ih =>
      rw [splitFirst, List.infix_cons_iff, ← List.isPrefixOf_iff_prefix]
      split
      · next here => simp [here]
      · next absent => simp [absent, ih]

end Cuts

section LastCut

variable {sep : Char} {cs before after : List Char}

theorem splitLast_eq_none : splitLast sep cs = none ↔ sep ∉ cs := by
  refine ⟨not_mem_of_splitLast_none, fun absent => ?_⟩
  cases found : splitLast sep cs with
  | none => rfl
  | some parts =>
      rw [(eq_of_splitLast found).1] at absent
      simp at absent

/-- The cut at the last separator. -/
theorem splitLast_eq_some : splitLast sep cs = some (before, after) ↔
    cs = before ++ sep :: after ∧ sep ∉ after := by
  refine ⟨eq_of_splitLast, ?_⟩
  rintro ⟨rfl, last⟩
  induction before with
  | nil => rw [List.nil_append, splitLast, splitLast_eq_none.mpr last, if_pos rfl]
  | cons c before ih => rw [List.cons_append, splitLast, ih]

end LastCut

section AllCuts

variable {sep : Char} {cs : List Char}

theorem splitAll_of_not_mem (absent : sep ∉ cs) : splitAll sep cs = [cs] := by
  induction cs with
  | nil => rfl
  | cons c cs ih =>
      rw [List.mem_cons, not_or] at absent
      rw [splitAll, if_neg (Ne.symm absent.1), ih absent.2]

/-- The parts of a text are those before one of its separators and those behind it. -/
theorem splitAll_append (sep : Char) (before after : List Char) :
    splitAll sep (before ++ sep :: after) = splitAll sep before ++ splitAll sep after := by
  induction before with
  | nil => simp [splitAll]
  | cons c before ih =>
      rw [List.cons_append, splitAll, splitAll, ih]
      split
      · rw [List.cons_append]
      · cases parts : splitAll sep before with
        | nil => exact absurd parts (splitAll_ne_nil sep before)
        | cons part parts => rw [List.cons_append, List.cons_append]

end AllCuts

theorem hasRun_iff {run cs : List Char} : hasRun run cs = true ↔ run <:+: cs := by
  induction cs with
  | nil => simp [hasRun]
  | cons c cs ih => rw [hasRun, Bool.or_eq_true, List.isPrefixOf_iff_prefix, ih, List.infix_cons_iff]

section Trims

variable {p : Char → Bool} {cs front back : List Char}

theorem dropWhile_of_head (head : ∀ c ∈ cs.head?, p c = false) : cs.dropWhile p = cs := by
  cases cs with
  | nil => rfl
  | cons c cs => rw [List.dropWhile_cons_of_neg (by simp [head c rfl])]

theorem dropWhile_append_of_head (all : ∀ c ∈ front, p c = true)
    (head : ∀ c ∈ cs.head?, p c = false) : (front ++ cs).dropWhile p = cs := by
  rw [List.dropWhile_append_of_pos all, dropWhile_of_head head]

theorem strip_append_left (leading : ∀ c ∈ front, p c = true) (cs : List Char) :
    strip p (front ++ cs) = strip p cs := by
  rw [strip, strip, List.dropWhile_append_of_pos leading]

theorem strip_append_right (trailing : ∀ c ∈ back, p c = true) (cs : List Char) :
    strip p (cs ++ back) = strip p cs := by
  rw [strip, strip, List.dropWhile_append]
  split
  · next none => rw [List.isEmpty_iff.mp none, List.dropWhile_eq_nil_iff.mpr trailing]
  · rw [dropEnd, dropEnd, List.reverse_append,
      List.dropWhile_append_of_pos (by simpa using trailing)]

/-- What is trimmed off is all that surrounds a text whose ends stay. -/
theorem strip_append (leading : ∀ c ∈ front, p c = true) (trailing : ∀ c ∈ back, p c = true)
    (head : ∀ c ∈ cs.head?, p c = false) (last : ∀ c ∈ cs.getLast?, p c = false) :
    strip p (front ++ cs ++ back) = cs := by
  rw [strip_append_right trailing, strip_append_left leading, strip, dropWhile_of_head head, dropEnd,
    dropWhile_of_head (by rwa [List.head?_reverse]), List.reverse_reverse]

/-- Trimming takes off nothing but what is to be trimmed. -/
theorem exists_surroundings (p : Char → Bool) (cs : List Char) :
    ∃ front back, cs = front ++ strip p cs ++ back ∧ (∀ c ∈ front, p c = true) ∧
      ∀ c ∈ back, p c = true := by
  refine ⟨cs.takeWhile p, ((cs.dropWhile p).reverse.takeWhile p).reverse, ?_, ?_, ?_⟩
  · rw [strip, dropEnd, List.append_assoc, ← List.reverse_append, List.takeWhile_append_dropWhile,
      List.reverse_reverse, List.takeWhile_append_dropWhile]
  · exact fun c mem => List.mem_takeWhile_imp mem
  · exact fun c mem => List.mem_takeWhile_imp (List.mem_reverse.mp mem)

end Trims

end ArenaPeak.Text
