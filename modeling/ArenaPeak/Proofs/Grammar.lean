import ArenaPeak.Command
import ArenaPeak.Proofs.Cuts
import Mathlib.Data.List.Forall2

/-!
The grammar of patterns and commands. A text is cut into a class and a method at its first pair of
colons, else at its last point, and a text without either is a class whose every method is meant.
That is its one reading, and the text is a pattern if both parts are stars around a core without
stars. A command is a mode word, a comma and a pattern, with white space around the word and around
the pattern, or the pattern alone.
-/

namespace ArenaPeak

namespace MethodPattern

/-! ### Parts -/

/-- Stars, then a core without stars, then stars. -/
structure Layers (part lead body trail : List Char) : Prop where
  eq : part = lead ++ body ++ trail
  lead : ∀ c ∈ lead, c = '*'
  body : '*' ∉ body
  trail : ∀ c ∈ trail, c = '*'

def ValidPart (part : List Char) : Prop :=
  part ≠ [] ∧ ∃ lead body trail, Layers part lead body trail

theorem isStar_iff {c : Char} : isStar c = true ↔ c = '*' :=
  beq_iff_eq

theorem any_isStar {cs : List Char} : cs.any isStar = false ↔ '*' ∉ cs := by
  simp only [List.any_eq_false, isStar_iff]
  exact ⟨fun h mem => h '*' mem rfl, fun h c mem eq => h (eq ▸ mem)⟩

variable {part lead body trail : List Char}

theorem Layers.core_eq (layers : Layers part lead body trail) : core part = body := by
  have plain (c : Char) (mem : c ∈ body) : isStar c = false := by
    rw [← Bool.not_eq_true, isStar_iff]
    rintro rfl
    exact layers.body mem
  rw [layers.eq, core]
  apply Text.strip_append
  · exact fun c mem => isStar_iff.mpr (layers.lead c mem)
  · exact fun c mem => isStar_iff.mpr (layers.trail c mem)
  · exact fun c first => plain c (List.mem_of_head? first)
  · exact fun c last => plain c (List.mem_of_getLast? last)

theorem exists_layers (plain : '*' ∉ core part) :
    ∃ lead trail, Layers part lead (core part) trail := by
  obtain ⟨lead, trail, eq, leads, trails⟩ := Text.exists_surroundings isStar part
  exact ⟨lead, trail, eq, fun c mem => isStar_iff.mp (leads c mem), plain,
    fun c mem => isStar_iff.mp (trails c mem)⟩

theorem isPart_iff : isPart part = true ↔ ValidPart part := by
  rw [isPart, Bool.and_eq_true, Bool.not_eq_true', Bool.not_eq_true', List.isEmpty_eq_false_iff,
    any_isStar, ValidPart]
  constructor
  · rintro ⟨there, plain⟩
    obtain ⟨lead, trail, layers⟩ := exists_layers plain
    exact ⟨there, lead, core part, trail, layers⟩
  · rintro ⟨there, lead, body, trail, layers⟩
    rw [layers.core_eq]
    exact ⟨there, layers.body⟩

/-! ### Patterns -/

/-- There is a pair of colons in a text. -/
def HasColons (s : String) : Prop :=
  [':', ':'] <:+: s.toList

instance (s : String) : Decidable (HasColons s) :=
  inferInstanceAs (Decidable (_ <:+: _))

/-- How a text is read as a class and a method. -/
inductive Reading (s : String) : String → String → Prop
  | colons {owner name : String} (eq : s = owner ++ "::" ++ name)
      (first : ¬ HasColons (owner ++ ":")) : Reading s owner name
  | point {owner name : String} (none : ¬ HasColons s) (eq : s = owner ++ "." ++ name)
      (last : '.' ∉ name.toList) : Reading s owner name
  | bare (none : ¬ HasColons s) (noPoint : '.' ∉ s.toList) : Reading s s "*"

variable {s owner name : String}

theorem splitFirst_colons :
    Text.splitFirst [':', ':'] s.toList = some (owner.toList, name.toList) ↔
      s = owner ++ "::" ++ name ∧ ¬ HasColons (owner ++ ":") := by
  rw [Text.splitFirst_eq_some (by simp), ← String.toList_inj, HasColons, String.toList_append,
    String.toList_append, String.toList_append]
  rfl

theorem splitLast_point :
    Text.splitLast '.' s.toList = some (owner.toList, name.toList) ↔
      s = owner ++ "." ++ name ∧ '.' ∉ name.toList := by
  rw [Text.splitLast_eq_some, ← String.toList_inj, String.toList_append, String.toList_append,
    List.append_assoc]
  rfl

theorem cut_eq : cut s.toList = (owner.toList, name.toList) ↔ Reading s owner name := by
  constructor
  · intro found
    rw [cut] at found
    split at found
    · next parts split =>
        rw [found, splitFirst_colons] at split
        exact .colons split.1 split.2
    · next whole =>
        have whole : ¬ HasColons s := (Text.splitFirst_eq_none (by simp)).mp whole
        split at found
        · next parts split =>
            rw [found, splitLast_point] at split
            exact .point whole split.1 split.2
        · next noPoint =>
            rw [Prod.mk.injEq, String.toList_inj] at found
            obtain ⟨rfl, star⟩ := found
            obtain rfl : "*" = name := String.toList_inj.mp star
            exact .bare whole (Text.splitLast_eq_none.mp noPoint)
  · intro reading
    cases reading with
    | colons eq first => rw [cut, splitFirst_colons.mpr ⟨eq, first⟩]
    | point none eq last =>
        rw [cut, (Text.splitFirst_eq_none (by simp)).mpr none, splitLast_point.mpr ⟨eq, last⟩]
    | bare none noPoint =>
        rw [cut, (Text.splitFirst_eq_none (by simp)).mpr none, Text.splitLast_eq_none.mpr noPoint]
        rfl

theorem Reading.unique {owner' name' : String} (first : Reading s owner name)
    (second : Reading s owner' name') : owner = owner' ∧ name = name' := by
  have same := (cut_eq.mpr first).symm.trans (cut_eq.mpr second)
  rw [Prod.mk.injEq, String.toList_inj, String.toList_inj] at same
  exact same

/-- The text is a pattern of a class part and a method part. -/
def Spells (s : String) (p : MethodPattern) : Prop :=
  Reading s p.owner p.name ∧ ValidPart p.owner.toList ∧ ValidPart p.name.toList

theorem parse_cases (s : String) : (∃ p, parse s = .ok p) ∨ parse s = .error (.badPattern s) := by
  rw [parse]
  dsimp only
  split
  · exact .inl ⟨_, rfl⟩
  · exact .inr rfl

theorem parse_eq_ok {p : MethodPattern} : parse s = .ok p ↔ Spells s p := by
  rw [parse, Spells, ← cut_eq, ← isPart_iff, ← isPart_iff]
  obtain ⟨first, second⟩ := cut s.toList
  dsimp only
  constructor
  · intro read
    split at read
    · next parts =>
        cases read
        simpa using parts
    · cases read
  · rintro ⟨same, owner, name⟩
    cases same
    simp [owner, name]

theorem parse_eq_error {e : ConfigError} :
    parse s = .error e ↔ e = .badPattern s ∧ ¬ ∃ p, Spells s p := by
  simp only [← parse_eq_ok]
  cases parse_cases s with
  | inl read =>
      obtain ⟨p, read⟩ := read
      simp [read]
  | inr failed => simp [failed, eq_comm]

end MethodPattern

/-! ### Commands -/

/-- Nothing but white space. -/
def Blank (s : String) : Prop :=
  ∀ c ∈ s.toList, Text.isBlank c = true

instance (s : String) : Decidable (Blank s) :=
  List.decidableBAll _ s.toList

/-- No white space at either end. -/
structure Trimmed (s : String) : Prop where
  head : ∀ c ∈ s.toList.head?, Text.isBlank c = false
  last : ∀ c ∈ s.toList.getLast?, Text.isBlank c = false

variable {before word after front s back : String} {mode : StatMode}

theorem trim_surrounded (leading : Blank front) (trimmed : Trimmed s) (trailing : Blank back) :
    Text.trim (front ++ s ++ back).toList = s.toList := by
  rw [String.toList_append, String.toList_append]
  exact Text.strip_append leading trailing trimmed.head trimmed.last

theorem Blank.not_comma (blank : Blank s) : ',' ∉ s.toList :=
  fun mem => absurd (blank ',' mem) (by decide)

namespace StatMode

/-- The word of a mode, each letter small or capital. -/
def Spells (word : String) (mode : StatMode) : Prop :=
  List.Forall₂ (fun given plain => given = plain ∨ given = plain.toUpper) word.toList
    mode.name.toList

instance (word : String) (mode : StatMode) : Decidable (Spells word mode) :=
  inferInstanceAs (Decidable (List.Forall₂ _ _ _))

/-- A letter that is read as a small one, and is neither white space nor a comma. -/
def Letter (plain given : Char) : Prop :=
  given.toLower = plain ∧ Text.isBlank given = false ∧ given ≠ ','

instance (plain given : Char) : Decidable (Letter plain given) :=
  inferInstanceAs (Decidable (_ ∧ _))

theorem letters (mode : StatMode) :
    ∀ plain ∈ mode.name.toList, Letter plain plain ∧ Letter plain plain.toUpper := by
  have all : (mode.name.toList.all fun plain =>
      decide (Letter plain plain ∧ Letter plain plain.toUpper)) = true := by
    cases mode <;> decide
  exact fun plain mem => of_decide_eq_true (List.all_eq_true.mp all plain mem)

theorem Spells.letters (spells : Spells word mode) :
    List.Forall₂ (fun given plain => Letter plain given) word.toList mode.name.toList := by
  have all := mode.letters
  rw [Spells] at spells
  generalize word.toList = given, mode.name.toList = plain at *
  induction spells with
  | nil => exact .nil
  | cons same _ ih =>
      rw [List.forall_mem_cons] at all
      refine .cons ?_ (ih all.2)
      cases same with
      | inl small => exact small ▸ all.1.1
      | inr capital => exact capital ▸ all.1.2

theorem Spells.lower_eq (spells : Spells word mode) :
    Text.lower word.toList = mode.name.toList := by
  rw [Text.lower, ← List.forall₂_eq_eq_eq, List.forall₂_map_left_iff]
  exact spells.letters.imp fun _ _ letter => letter.1

theorem Spells.plain (spells : Spells word mode) {c : Char} (mem : c ∈ word.toList) :
    Text.isBlank c = false ∧ c ≠ ',' := by
  obtain ⟨i, h, rfl⟩ := List.mem_iff_getElem.mp mem
  exact (spells.letters.get h (spells.letters.length_eq ▸ h)).2

theorem Spells.trimmed (spells : Spells word mode) : Trimmed word where
  head _ first := (spells.plain (List.mem_of_head? first)).1
  last _ last := (spells.plain (List.mem_of_getLast? last)).1

theorem parse_spelled (leading : Blank before) (spells : Spells word mode)
    (trailing : Blank after) : parse (before ++ word ++ after).toList = .ok mode := by
  rw [parse, trim_surrounded leading spells.trimmed trailing, spells.lower_eq]
  simp only [String.ofList_toList, ofName?_name]

end StatMode

namespace StatCommand

theorem parse_mode (leading : Blank before) (spells : mode.Spells word) (trailing : Blank after)
    (inner : Blank front) (trimmed : Trimmed s) (outer : Blank back) :
    parse (before ++ word ++ after ++ "," ++ (front ++ s ++ back)) =
      (MethodPattern.parse s).map (StatCommand.mk mode) := by
  have noComma : ',' ∉ (before ++ word ++ after).toList := by
    simp only [String.toList_append, List.mem_append, not_or]
    exact ⟨⟨leading.not_comma, fun mem => (spells.plain mem).2 rfl⟩, trailing.not_comma⟩
  have split : Text.splitFirst [','] (before ++ word ++ after ++ "," ++ (front ++ s ++ back)).toList =
      some ((before ++ word ++ after).toList, (front ++ s ++ back).toList) := by
    rw [Text.splitFirst_eq_some (by simp), String.toList_append, String.toList_append]
    refine ⟨rfl, ?_⟩
    rw [List.dropLast_singleton, List.append_nil, List.singleton_infix_iff]
    exact noComma
  rw [parse, parseChars, split]
  dsimp only
  rw [StatMode.parse_spelled leading spells trailing, trim_surrounded inner trimmed outer,
    String.ofList_toList]
  cases MethodPattern.parse s <;> rfl

theorem parse_bare (leading : Blank front) (trimmed : Trimmed s) (trailing : Blank back)
    (noComma : ',' ∉ s.toList) :
    parse (front ++ s ++ back) = (MethodPattern.parse s).map (StatCommand.mk .collect) := by
  have whole : Text.splitFirst [','] (front ++ s ++ back).toList = none := by
    rw [Text.splitFirst_eq_none (by simp), List.singleton_infix_iff]
    simp only [String.toList_append, List.mem_append, not_or]
    exact ⟨⟨leading.not_comma, noComma⟩, trailing.not_comma⟩
  rw [parse, parseChars, whole]
  dsimp only
  rw [trim_surrounded leading trimmed trailing, String.ofList_toList]
  cases MethodPattern.parse s <;> rfl

/-- A text is a pattern exactly by the grammar and in one reading, or it is what the error carries; a
command is a mode with the pattern after the comma, and a pattern alone is to be collected. -/
theorem reads_grammar :
    (∀ s p, MethodPattern.parse s = .ok p ↔ MethodPattern.Spells s p) ∧
    (∀ s, (¬ ∃ p, MethodPattern.Spells s p) → MethodPattern.parse s = .error (.badPattern s)) ∧
    (∀ s owner name owner' name', MethodPattern.Reading s owner name →
      MethodPattern.Reading s owner' name' → owner = owner' ∧ name = name') ∧
    (∀ mode before word after front s back, StatMode.Spells word mode → Blank before →
      Blank after → Blank front → Trimmed s → Blank back →
      parse (before ++ word ++ after ++ "," ++ (front ++ s ++ back)) =
        (MethodPattern.parse s).map (StatCommand.mk mode)) ∧
    (∀ front s back, Blank front → Trimmed s → Blank back → ',' ∉ s.toList →
      parse (front ++ s ++ back) = (MethodPattern.parse s).map (StatCommand.mk .collect)) := by
  refine ⟨fun s p => MethodPattern.parse_eq_ok, ?_, ?_, ?_, ?_⟩
  · intro s none
    exact MethodPattern.parse_eq_error.mpr ⟨rfl, none⟩
  · intro s owner name owner' name' first second
    exact first.unique second
  · intro mode before word after front s back spells leading trailing inner trimmed outer
    exact parse_mode leading spells trailing inner trimmed outer
  · intro front s back leading trimmed trailing noComma
    exact parse_bare leading trimmed trailing noComma

/-- The first two of three colons are the cut. -/
theorem reads_grammar_three_colons :
    parse ("\t" ++ "pRiNt" ++ " " ++ "," ++ (" " ++ "a:::b*" ++ "\n")) =
      .ok ⟨.print, ⟨"a", ":b*"⟩⟩ := by
  have pattern : MethodPattern.parse "a:::b*" = .ok ⟨"a", ":b*"⟩ := by
    refine (reads_grammar.1 _ _).mpr ⟨.colons rfl (by decide), ?_, ?_⟩
    · exact MethodPattern.isPart_iff.mp (by decide)
    · exact MethodPattern.isPart_iff.mp (by decide)
  have trimmed : Trimmed "a:::b*" :=
    ⟨fun c first => by cases first; decide, fun c last => by cases last; decide⟩
  have command := reads_grammar.2.2.2.1 .print "\t" "pRiNt" " " " " "a:::b*" "\n" (by decide)
    (by decide) (by decide) (by decide) trimmed (by decide)
  rw [command, pattern]
  rfl

end StatCommand

end ArenaPeak
