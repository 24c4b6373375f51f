import ArenaPeak.Proofs.Grammar
import ArenaPeak.Proofs.Settings

/-!
Lists of commands. Two lists written one after the other, a semicolon between them, are read as the
commands of the first and then those of the second, and white space and blank entries do not count.
In a list the last command that applies decides, so the commands of a later list override those of
an earlier one, method by method; those of the arguments come after those of the environment.
-/

namespace ArenaPeak

/-- A list of texts is another one with white space around its items and blank items among them. -/
inductive Loosened : List String → List String → Prop
  | nil : Loosened [] []
  | blank {s : String} {loose tight : List String} (blank : Blank s) (rest : Loosened loose tight) :
      Loosened (s :: loose) tight
  | item {front s back : String} {loose tight : List String} (leading : Blank front)
      (trailing : Blank back) (rest : Loosened loose tight) :
      Loosened ((front ++ s ++ back) :: loose) (s :: tight)

namespace StatCommand

/-! ### Entries -/

variable {front back cs : List Char}

theorem entries_append (before after : List Char) :
    entries (before ++ ';' :: after) = entries before ++ entries after := by
  rw [entries, Text.splitAll_append, List.map_append, List.filter_append]
  rfl

theorem entries_of_not_mem (single : ';' ∉ cs) :
    entries cs = [Text.trim cs].filter (!·.isEmpty) := by
  rw [entries, Text.splitAll_of_not_mem single]
  rfl

theorem not_mem_of_blank (blank : ∀ c ∈ cs, Text.isBlank c = true) : ';' ∉ cs :=
  fun mem => absurd (blank ';' mem) (by decide)

theorem entries_append_left (leading : ∀ c ∈ front, Text.isBlank c = true) (cs : List Char) :
    entries (front ++ cs) = entries cs := by
  have single {part : List Char} (absent : ';' ∉ part) : entries (front ++ part) = entries part := by
    rw [entries_of_not_mem (by simp [not_mem_of_blank leading, absent]),
      entries_of_not_mem absent, Text.trim, Text.strip_append_left leading]
    rfl
  by_cases mem : ';' ∈ cs
  · obtain ⟨first, rest, rfl, absent⟩ := List.eq_append_cons_of_mem mem
    rw [← List.append_assoc, entries_append, entries_append, single absent]
  · exact single mem

theorem entries_append_right (trailing : ∀ c ∈ back, Text.isBlank c = true) (cs : List Char) :
    entries (cs ++ back) = entries cs := by
  have single {part : List Char} (absent : ';' ∉ part) : entries (part ++ back) = entries part := by
    rw [entries_of_not_mem (by simp [not_mem_of_blank trailing, absent]),
      entries_of_not_mem absent, Text.trim, Text.strip_append_right trailing]
    rfl
  cases cut : Text.splitLast ';' cs with
  | none => exact single (Text.splitLast_eq_none.mp cut)
  | some parts =>
      obtain ⟨rfl, absent⟩ := Text.splitLast_eq_some.mp cut
      rw [List.append_assoc, List.cons_append, entries_append, entries_append, single absent]

theorem entries_blank (blank : ∀ c ∈ cs, Text.isBlank c = true) : entries cs = [] := by
  rw [← List.append_nil cs, entries_append_left blank]
  rfl

theorem entries_intercalate (items : List String) :
    entries (";".intercalate items).toList = items.flatMap fun s => entries s.toList := by
  induction items with
  | nil => rfl
  | cons s items ih =>
      cases items with
      | nil => simp
      | cons t items =>
          rw [String.intercalate_cons_cons, String.toList_append, String.toList_append,
            List.append_assoc, List.flatMap_cons, ← ih]
          exact entries_append s.toList _

theorem entries_loosened {loose tight : List String} (h : Loosened loose tight) :
    entries (";".intercalate loose).toList = entries (";".intercalate tight).toList := by
  rw [entries_intercalate, entries_intercalate]
  induction h with
  | nil => rfl
  | blank blank _ ih => rw [List.flatMap_cons, entries_blank blank, List.nil_append, ih]
  | item leading trailing _ ih =>
      rw [List.flatMap_cons, List.flatMap_cons, String.toList_append, String.toList_append,
        entries_append_right trailing, entries_append_left leading, ih]

/-! ### Commands -/

theorem parseList_append (a b : String) :
    parseList (a ++ ";" ++ b) =
      (do
        let first ← parseList a
        let second ← parseList b
        return first ++ second) := by
  rw [parseList, String.toList_append, String.toList_append, List.append_assoc]
  change List.mapM parseChars (entries (a.toList ++ ';' :: b.toList)) = _
  rw [entries_append, List.mapM_append]
  rfl

theorem directiveFor_append (earlier later : List StatCommand) (m : Method) :
    directiveFor (earlier ++ later) m =
      if ∃ c ∈ later, c.applies m = true then directiveFor later m else directiveFor earlier m := by
  rw [directiveFor, List.reverse_append, List.find?_append]
  by_cases some : ∃ c ∈ later, c.applies m = true
  · have found : (later.reverse.find? (·.applies m)).isSome = true := by simpa using some
    obtain ⟨c, found⟩ := Option.isSome_iff_exists.mp found
    rw [if_pos some, directiveFor, found, Option.some_or]
  · have absent : later.reverse.find? (·.applies m) = none := by simpa using some
    rw [if_neg some, directiveFor, absent, Option.none_or]

theorem collect_directive (c : StatCommand) : c.directive.collect = true := by
  obtain ⟨mode, pattern⟩ := c
  cases mode <;> rfl

/-- A directive is that of a command that applies, or off if none does. -/
theorem directiveFor_cases (commands : List StatCommand) (m : Method) :
    (∃ c ∈ commands, c.applies m = true ∧ directiveFor commands m = c.directive) ∨
      ((¬ ∃ c ∈ commands, c.applies m = true) ∧ directiveFor commands m = .off) := by
  rw [directiveFor]
  cases found : commands.reverse.find? (·.applies m) with
  | none => exact .inr ⟨by simpa using found, rfl⟩
  | some c =>
      have applies : c.applies m = true := by simpa using List.find?_some found
      exact .inl ⟨c, List.mem_reverse.mp (List.mem_of_find?_eq_some found), applies, rfl⟩

theorem collect_directiveFor (commands : List StatCommand) (m : Method) :
    (directiveFor commands m).collect = true ↔ ∃ c ∈ commands, c.applies m = true := by
  obtain ⟨c, mem, applies, eq⟩ | ⟨none, eq⟩ := directiveFor_cases commands m
  · rw [eq]
    exact iff_of_true c.collect_directive ⟨c, mem, applies⟩
  · rw [eq]
    exact iff_of_false Bool.false_ne_true none

theorem collect_of_prints {commands : List StatCommand} {m : Method}
    (prints : (directiveFor commands m).prints = true) :
    (directiveFor commands m).collect = true := by
  obtain ⟨c, -, -, eq⟩ | ⟨-, eq⟩ := directiveFor_cases commands m
  · rw [eq]
    exact c.collect_directive
  · rw [eq] at prints
    cases prints

end StatCommand

namespace CommandLine

/-- The commands of the environment. -/
def inheritedCommands (w : Surroundings) : Except ConfigError (List StatCommand) :=
  match w.environment "MEMSTAT_COMMANDS" with
  | some s => StatCommand.parseList s
  | none => .ok []

theorem inheritedCommands_eq (w : Surroundings) :
    inheritedCommands w = (environmentEntries w).mapM StatCommand.parseChars := by
  rw [inheritedCommands, environmentEntries]
  cases w.environment "MEMSTAT_COMMANDS" <;> rfl

/-- A replay takes the commands of the environment, and after them those of its arguments. -/
theorem commands_configFor {w : Surroundings} {o : ReplayOptions} {config : StatConfig}
    (run : configFor w o = .ok config) :
    ∃ inherited added, inheritedCommands w = .ok inherited ∧
      o.commands.mapM StatCommand.parse = .ok added ∧ config.commands = inherited ++ added := by
  obtain ⟨inherited, added, eq, first, second⟩ := (configFor_eq_ok.mp run).commands
  exact ⟨inherited, added, (inheritedCommands_eq w).trans (mapM_eq_ok.mpr first),
    mapM_eq_ok.mpr second, eq⟩

end CommandLine

namespace StatCommand

/-- Lists written one after the other are read one after the other, white space aside, and what a
later list says of a method overrides what an earlier one says; the arguments come after the
environment. -/
theorem lists_compose :
    (∀ a b, parseList (a ++ ";" ++ b) =
      match parseList a, parseList b with
      | .ok first, .ok second => .ok (first ++ second)
      | .error e, _ => .error e
      | .ok _, .error e => .error e) ∧
    (∀ loose tight, Loosened loose tight →
      parseList (";".intercalate loose) = parseList (";".intercalate tight)) ∧
    (∀ (config : StatConfig) (earlier later : List StatCommand) (m : Method),
      { config with commands := earlier ++ later }.directiveFor m =
        if ∃ c ∈ later, c.applies m = true then { config with commands := later }.directiveFor m
        else { config with commands := earlier }.directiveFor m) ∧
    (∀ (config : StatConfig) (m : Method),
      ((config.directiveFor m).prints = true → (config.directiveFor m).collect = true) ∧
      ((config.directiveFor m).collect = true ↔ ∃ c ∈ config.commands, c.applies m = true)) ∧
    (∀ (w : CommandLine.Surroundings) (o : CommandLine.ReplayOptions) (config : StatConfig),
      CommandLine.configFor w o = .ok config →
        ∃ inherited added, CommandLine.inheritedCommands w = .ok inherited ∧
          o.commands.mapM parse = .ok added ∧
          ∀ m, config.directiveFor m =
            if ∃ c ∈ added, c.applies m = true then directiveFor added m
            else directiveFor inherited m) := by
  refine ⟨?_, ?_, ?_, ?_, ?_⟩
  · intro a b
    rw [parseList_append]
    cases parseList a with
    | error e => rfl
    | ok first => cases parseList b <;> rfl
  · intro loose tight loosened
    rw [parseList, parseList, entries_loosened loosened]
  · intro config earlier later m
    exact directiveFor_append earlier later m
  · intro config m
    exact ⟨collect_of_prints, collect_directiveFor config.commands m⟩
  · intro w o config run
    obtain ⟨inherited, added, first, second, eq⟩ := CommandLine.commands_configFor run
    refine ⟨inherited, added, first, second, fun m => ?_⟩
    rw [StatConfig.directiveFor, eq]
    exact directiveFor_append inherited added m

/-- The environment has every method printed, with blank entries behind the command. -/
def printsAll : CommandLine.Surroundings where
  environment name := if name = "MEMSTAT_COMMANDS" then some " print,*.*;\t; " else none
  file _ := .error .missing
  course := ⟨[], fun _ => .zero⟩
  order := .asCommitted

/-- The arguments have one method collected instead. -/
theorem lists_compose_collected :
    parseList (";".intercalate [" " ++ "print,*.*" ++ "", "\t", " "]) =
        parseList (";".intercalate ["print,*.*"]) ∧
      ∃ inherited added, CommandLine.inheritedCommands printsAll = .ok inherited ∧
        ["A.b"].mapM parse = .ok added ∧
        ∀ m, directiveFor [⟨.print, ⟨"*", "*"⟩⟩, ⟨.collect, ⟨"A", "b"⟩⟩] m =
          if ∃ c ∈ added, c.applies m = true then directiveFor added m
          else directiveFor inherited m := by
  have blanks : Loosened ["\t", " "] [] := .blank (by decide) (.blank (by decide) .nil)
  refine ⟨lists_compose.2.1 _ _ (.item (by decide) (by decide) blanks), ?_⟩
  exact lists_compose.2.2.2.2 printsAll ⟨"", none, false, none, ["A.b"], .text⟩
    ⟨true, [⟨.print, ⟨"*", "*"⟩⟩, ⟨.collect, ⟨"A", "b"⟩⟩], false, 0, 2⟩ (by decide +kernel)

end StatCommand

end ArenaPeak
