import ArenaPeak.Proofs.Grammar

/-!
Patterns as globs. In a glob a star stands for any run of characters, also for none, and every other
character stands for itself. A part made of stars, a core without stars and stars again matches the
texts in which the core stands, with nothing before it if no star leads and nothing behind it if
none trails; both the glob and the test made by a pattern come to that.
-/

namespace ArenaPeak

namespace MethodPattern

/-- A glob and a text it matches. -/
inductive Glob : List Char → List Char → Prop
  | nil : Glob [] []
  | star {glob rest : List Char} (run : List Char) (matched : Glob glob rest) :
      Glob ('*' :: glob) (run ++ rest)
  | char {glob rest : List Char} {c : Char} (plain : c ≠ '*') (matched : Glob glob rest) :
      Glob (c :: glob) (c :: rest)

/-- The core stands in a text, at its beginning unless stars lead, and at its end unless they
trail. -/
def Holds (lead body trail text : List Char) : Prop :=
  ∃ before after, text = before ++ body ++ after ∧ (lead = [] → before = []) ∧
    (trail = [] → after = [])

variable {part lead body trail glob text : List Char}

/-! ### Globs -/

theorem glob_nil : Glob [] text ↔ text = [] := by
  constructor
  · intro matched
    cases matched
    rfl
  · rintro rfl
    exact .nil

theorem glob_star : Glob ('*' :: glob) text ↔ ∃ run rest, text = run ++ rest ∧ Glob glob rest := by
  constructor
  · intro matched
    cases matched with
    | star run matched => exact ⟨run, _, rfl, matched⟩
    | char plain _ => exact absurd rfl plain
  · rintro ⟨run, rest, rfl, matched⟩
    exact .star run matched

theorem glob_char {c : Char} (plain : c ≠ '*') :
    Glob (c :: glob) text ↔ ∃ rest, text = c :: rest ∧ Glob glob rest := by
  constructor
  · intro matched
    cases matched with
    | star _ _ => exact absurd rfl plain
    | char _ matched => exact ⟨_, rfl, matched⟩
  · rintro ⟨rest, rfl, matched⟩
    exact .char plain matched

/-- Many stars are as good as one. -/
theorem glob_stars (stars : ∀ c ∈ lead, c = '*') : Glob (lead ++ glob) text ↔
    ∃ before rest, text = before ++ rest ∧ (lead = [] → before = []) ∧ Glob glob rest := by
  induction lead generalizing text with
  | nil => simp
  | cons c lead ih =>
      rw [List.forall_mem_cons] at stars
      obtain ⟨rfl, stars⟩ := stars
      rw [List.cons_append, glob_star]
      constructor
      · rintro ⟨run, text, rfl, matched⟩
        obtain ⟨before, rest, rfl, -, behind⟩ := (ih stars).mp matched
        exact ⟨run ++ before, rest, (List.append_assoc ..).symm, by simp, behind⟩
      · -- the first star takes all there is to take, the others nothing
        rintro ⟨before, rest, rfl, -, matched⟩
        exact ⟨before, rest, rfl, (ih stars).mpr ⟨[], rest, rfl, fun _ => rfl, matched⟩⟩

theorem glob_plain (plain : '*' ∉ body) :
    Glob (body ++ glob) text ↔ ∃ rest, text = body ++ rest ∧ Glob glob rest := by
  induction body generalizing text with
  | nil => simp
  | cons c body ih =>
      rw [List.mem_cons, not_or] at plain
      rw [List.cons_append, glob_char (Ne.symm plain.1)]
      constructor
      · rintro ⟨text, rfl, matched⟩
        obtain ⟨rest, rfl, behind⟩ := (ih plain.2).mp matched
        exact ⟨rest, rfl, behind⟩
      · rintro ⟨rest, rfl, matched⟩
        exact ⟨body ++ rest, rfl, (ih plain.2).mpr ⟨rest, rfl, matched⟩⟩

theorem Layers.glob_iff (layers : Layers part lead body trail) :
    Glob part text ↔ Holds lead body trail text := by
  have ending (rest : List Char) : Glob trail rest ↔ (trail = [] → rest = []) := by
    rw [← List.append_nil trail, glob_stars layers.trail]
    simp [glob_nil]
  rw [layers.eq, List.append_assoc, glob_stars layers.lead, Holds]
  simp only [glob_plain layers.body, ending]
  constructor
  · rintro ⟨before, rest, rfl, leads, after, rfl, trails⟩
    exact ⟨before, after, (List.append_assoc ..).symm, leads, trails⟩
  · rintro ⟨before, after, rfl, leads, trails⟩
    exact ⟨before, body ++ after, List.append_assoc .., leads, after, rfl, trails⟩

/-! ### The test of a part -/

/-- Where there is a core, a part begins with a star just if stars lead. -/
theorem Layers.leads (layers : Layers part lead body trail) (there : body ≠ []) :
    part.head?.any isStar = !lead.isEmpty := by
  rw [layers.eq]
  cases lead with
  | nil =>
      cases body with
      | nil => exact absurd rfl there
      | cons c body =>
          have plain : ¬ c = '*' := fun eq => layers.body (eq ▸ List.mem_cons_self)
          simp [isStar, plain]
  | cons c lead =>
      obtain rfl := layers.lead c List.mem_cons_self
      rfl

/-- It ends with one just if stars trail; with a core it is longer than a lone star. -/
theorem Layers.trails (layers : Layers part lead body trail) (there : body ≠ []) :
    (decide (1 < part.length) && part.getLast?.any isStar) = !trail.isEmpty := by
  rw [layers.eq]
  cases trail.eq_nil_or_concat' with
  | inl none =>
      subst none
      have plain : ¬ body.getLast there = '*' := fun eq =>
        layers.body (eq ▸ List.getLast_mem there)
      simp [List.getLast?_append, List.getLast?_eq_some_getLast there, isStar, plain]
  | inr last =>
      obtain ⟨stars, c, rfl⟩ := last
      obtain rfl := layers.trail c (by simp)
      have long : 1 < (lead ++ body ++ (stars ++ ['*'])).length := by
        have := List.length_pos_iff.mpr there
        simp only [List.length_append, List.length_singleton]
        omega
      rw [decide_eq_true long, ← List.append_assoc, List.getLast?_concat]
      simp [isStar]

/-- Stars alone match everything. -/
theorem Layers.holds_of_stars (layers : Layers part lead [] trail) (there : part ≠ []) :
    Holds lead [] trail text := by
  cases lead with
  | nil =>
      refine ⟨[], text, rfl, fun _ => rfl, fun none => ?_⟩
      rw [layers.eq, none] at there
      exact absurd rfl there
  | cons c lead => exact ⟨text, [], by simp, by simp, fun _ => rfl⟩

/-- The test of a part looks for the core. -/
theorem Layers.partMatches_iff (layers : Layers part lead body trail) (there : part ≠ []) :
    partMatches part text = true ↔ Holds lead body trail text := by
  by_cases stars : body = []
  · subst stars
    rw [partMatches, layers.core_eq]
    exact iff_of_true rfl (layers.holds_of_stars there)
  · simp only [partMatches, layers.core_eq, layers.leads stars, layers.trails stars,
      List.isEmpty_eq_false_iff.mpr stars, Bool.false_eq_true, if_false]
    cases lead with
    | nil =>
        cases trail with
        | nil => simp [Holds]
        | cons c trail => simp [Holds, List.prefix_iff_exists_eq_append]
    | cons c lead =>
        cases trail with
        | nil => simp [Holds, List.suffix_iff_exists_eq_append]
        | cons c' trail =>
            refine Text.hasRun_iff.trans ⟨?_, ?_⟩
            · rintro ⟨before, after, rfl⟩
              exact ⟨before, after, rfl, by simp, by simp⟩
            · rintro ⟨before, after, rfl, -, -⟩
              exact ⟨before, after, rfl⟩

theorem ValidPart.partMatches_iff (valid : ValidPart part) :
    partMatches part text = true ↔ Glob part text := by
  obtain ⟨there, lead, body, trail, layers⟩ := valid
  rw [layers.partMatches_iff there, layers.glob_iff]

/-- A pattern covers the methods whose class and name match its parts as globs; what table their
symbols are from, and the signature, make no difference. -/
theorem covers_iff_glob {s : String} {p : MethodPattern} (parsed : parse s = .ok p) (m : Method) :
    (p.covers m = true ↔
      Glob p.owner.toList m.owner.text.toList ∧ Glob p.name.toList m.name.text.toList) ∧
    ∀ m' : Method, m'.owner.text = m.owner.text → m'.name.text = m.name.text →
      p.covers m' = p.covers m := by
  obtain ⟨-, owner, name⟩ := parse_eq_ok.mp parsed
  refine ⟨?_, ?_⟩
  · rw [covers, Bool.and_eq_true, owner.partMatches_iff, name.partMatches_iff]
  · intro m' sameOwner sameName
    rw [covers, covers, sameOwner, sameName]

/-- A lone star is a whole part, and one that leads leaves room before the core. -/
theorem covers_iff_glob_star_run :
    parse "**Map.*" = .ok ⟨"**Map", "*"⟩ ∧
      MethodPattern.covers ⟨"**Map", "*"⟩ ⟨⟨0, "java/HashMap"⟩, ⟨1, ""⟩, ⟨2, "()V"⟩⟩ = true := by
  have parsed : parse "**Map.*" = .ok ⟨"**Map", "*"⟩ := by decide
  refine ⟨parsed, (covers_iff_glob parsed _).1.mpr ⟨?_, ?_⟩⟩
  · exact .star "java/".toList (.star "Hash".toList (.char (by decide) (.char (by decide)
      (.char (by decide) .nil))))
  · exact .star [] .nil

end MethodPattern

end ArenaPeak
