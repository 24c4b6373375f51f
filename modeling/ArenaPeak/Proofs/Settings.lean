import ArenaPeak.CommandLine
import ArenaPeak.Proofs.Spots
import ArenaPeak.Proofs.Validation

/-!
How the command line comes to its trace and its configuration. A trace goes through the stages of
being read, decoded, parsed and validated, and the first that fails decides what is said. How a text
is parsed is up to a reader, and so is the reason why it cannot be. The configuration is put
together from the defaults, the environment and the options: a word or a number of the environment
that cannot be read is passed over, a command that cannot be read is an error, and the first such
command decides, those of the environment before those of the arguments.
-/

namespace ArenaPeak

/-! ### Lists that are read item by item -/

/-- The items up to some place can be read; the item there cannot, for the reason given. -/
def FirstError {α β ε : Type} (read : α → Except ε β) (items : List α) (e : ε) : Prop :=
  ∃ before item after, items = before ++ item :: after ∧
    (∀ x ∈ before, ∃ b, read x = .ok b) ∧ read item = .error e

section Lists

variable {α β ε : Type} {read : α → Except ε β} {items : List α} {e : ε}

theorem firstError_cons {item : α} :
    FirstError read (item :: items) e ↔
      read item = .error e ∨ ((∃ b, read item = .ok b) ∧ FirstError read items e) := by
  constructor
  · rintro ⟨before, x, after, split, fine, failed⟩
    cases before with
    | nil =>
        cases split
        exact .inl failed
    | cons y before =>
        cases split
        rw [List.forall_mem_cons] at fine
        exact .inr ⟨fine.1, before, x, after, rfl, fine.2, failed⟩
  · rintro (failed | ⟨first, before, x, after, rfl, fine, failed⟩)
    · exact ⟨[], item, items, rfl, by simp, failed⟩
    · exact ⟨item :: before, x, after, rfl, List.forall_mem_cons.mpr ⟨first, fine⟩, failed⟩

theorem mapM_eq_ok {bs : List β} :
    items.mapM read = .ok bs ↔ List.Forall₂ (fun x b => read x = .ok b) items bs := by
  induction items generalizing bs with
  | nil => cases bs <;> simp [pure, Except.pure]
  | cons item items ih =>
      rw [List.mapM_cons]
      cases first : read item with
      | error e' => cases bs <;> simp [first, bind, Except.bind]
      | ok b =>
          cases rest : items.mapM read with
          | error e' => cases bs <;> simp [bind, Except.bind, ← ih, rest, first]
          | ok bs' => cases bs <;> simp [bind, Except.bind, pure, Except.pure, ← ih, rest, first]

theorem mapM_eq_error : items.mapM read = .error e ↔ FirstError read items e := by
  induction items with
  | nil => simp [FirstError, pure, Except.pure]
  | cons item items ih =>
      rw [List.mapM_cons, firstError_cons, ← ih]
      cases first : read item with
      | error e' => simp [bind, Except.bind]
      | ok b => cases rest : items.mapM read <;> simp [bind, Except.bind, pure, Except.pure]

end Lists

/-! ### Words and numbers -/

/-- Digits, with at most one plus sign before them, whose value is the number. -/
def Decimal (s : String) (n : UInt64) : Prop :=
  ∃ digits, (s.toList = digits ∨ s.toList = '+' :: digits) ∧ digits ≠ [] ∧
    (∀ c ∈ digits, c.isDigit = true) ∧ n.toNat = Nat.ofDigitChars 10 digits 0

/-- A word for true, in any case and with white space around it. -/
def TrueWord (s : String) : Prop :=
  String.ofList (Text.lower (Text.trim s.toList)) ∈ ["1", "true", "yes", "on"]

/-- A numeral without its plus sign. -/
def unsigned (cs : List Char) : List Char :=
  match cs with
  | '+' :: rest => rest
  | _ => cs

theorem unsigned_cases (cs : List Char) :
    cs = '+' :: unsigned cs ∨ (unsigned cs = cs ∧ ∀ rest, cs ≠ '+' :: rest) := by
  unfold unsigned
  split
  · exact .inl rfl
  · next other => exact .inr ⟨rfl, other⟩

theorem parseWord_eq (cs : List Char) :
    parseWord cs =
      if (unsigned cs).isEmpty || !(unsigned cs).all Char.isDigit then none
      else if Nat.ofDigitChars 10 (unsigned cs) 0 ≤ maxWord then
        some (UInt64.ofNat (Nat.ofDigitChars 10 (unsigned cs) 0))
      else none :=
  rfl

theorem parseWord_eq_some_iff {cs : List Char} {n : UInt64} :
    parseWord cs = some n ↔ unsigned cs ≠ [] ∧ (∀ c ∈ unsigned cs, c.isDigit = true) ∧
      n.toNat = Nat.ofDigitChars 10 (unsigned cs) 0 := by
  have size : maxWord + 1 = UInt64.size := rfl
  rw [parseWord_eq]
  by_cases readable : unsigned cs ≠ [] ∧ ∀ c ∈ unsigned cs, c.isDigit = true
  · rw [if_neg (by simpa using readable), ← and_assoc, and_iff_right readable]
    split
    · next small =>
        rw [Option.some.injEq, ← UInt64.toNat_inj, UInt64.toNat_ofNat_of_lt' (by omega), eq_comm]
    · next large =>
        have bound := n.toNat_lt_size
        constructor
        · intro found
          cases found
        · intro value
          omega
  · rw [if_pos (by simpa [or_iff_not_imp_left] using readable)]
    constructor
    · intro found
      cases found
    · rintro ⟨there, all, -⟩
      exact absurd ⟨there, all⟩ readable

theorem parseWord_eq_some {s : String} {n : UInt64} :
    parseWord s.toList = some n ↔ Decimal s n := by
  rw [parseWord_eq_some_iff]
  constructor
  · rintro ⟨there, all, value⟩
    refine ⟨_, ?_, there, all, value⟩
    cases unsigned_cases s.toList with
    | inl signed => exact .inr signed
    | inr bare => exact .inl bare.1.symm
  · rintro ⟨digits, bare | signed, there, all, value⟩
    · cases unsigned_cases s.toList with
      | inl signed =>
          have plus := all '+' (by rw [← bare, signed]; exact List.mem_cons_self)
          exact absurd plus (by decide)
      | inr same =>
          rw [same.1, bare]
          exact ⟨there, all, value⟩
    · rw [signed]
      exact ⟨there, all, value⟩

theorem parseSwitch_eq_true {s : String} : parseSwitch s = some true ↔ TrueWord s := by
  rw [parseSwitch, TrueWord]
  split <;> simp_all

/-! ### The trace -/

namespace CommandLine

variable {readers : Readers} {w : Surroundings} {path : String}

/-- The trace that is read, decoded, parsed and validated. -/
def Accepts (readers : Readers) (w : Surroundings) (path : String) (t : Trace) : Prop :=
  ∃ bytes text, w.file path = .ok bytes ∧ String.fromUTF8? bytes = some text ∧
    readers.trace text = .ok t ∧ t.validate = .ok ()

/-- Where a trace does not get through, and why. -/
inductive TraceStops (readers : Readers) (w : Surroundings) (path : String) : Failure → Prop
  | unreadable (e : FileError) (failed : w.file path = .error e) :
      TraceStops readers w path (.unreadable e)
  | notText (bytes : ByteArray) (read : w.file path = .ok bytes)
      (failed : String.fromUTF8? bytes = none) : TraceStops readers w path .notText
  | malformed (bytes : ByteArray) (text reason : String) (read : w.file path = .ok bytes)
      (decoded : String.fromUTF8? bytes = some text) (failed : readers.trace text = .error reason) :
      TraceStops readers w path (.malformed reason)
  | invalid (bytes : ByteArray) (text : String) (t : Trace) (fault : Trace.Fault)
      (read : w.file path = .ok bytes) (decoded : String.fromUTF8? bytes = some text)
      (parsed : readers.trace text = .ok t) (failed : t.validate = .error fault) :
      TraceStops readers w path (.invalid fault)

/-- What is printed about a failure. -/
inductive Failure.Worded : Failure → String → Prop
  | unreadable (e : FileError) : Worded (.unreadable e)
      (e.reason ++ " (os error " ++ toString e.number ++ ")")
  | notText : Worded .notText "stream did not contain valid UTF-8"
  | malformed (reason : String) : Worded (.malformed reason) ("trace parse: " ++ reason)
  | invalid (fault : Trace.Fault) (text : String) (worded : fault.Worded text) :
      Worded (.invalid fault) text
  | unknownMode (word : String) : Worded (.config (.unknownMode word))
      ("Invalid configuration: unknown MemStat mode '" ++ word ++ "'")
  | badPattern (text : String) : Worded (.config (.badPattern text))
      ("Invalid method pattern '" ++ text ++ "'")
  | violated (v : Violation) : Worded (.violated v) v.message

theorem Failure.worded_message (cause : Failure) : cause.Worded cause.message := by
  cases cause with
  | unreadable e => exact .unreadable e
  | notText => exact .notText
  | malformed reason => exact .malformed reason
  | invalid fault => exact .invalid fault _ fault.worded_message
  | config e =>
      cases e with
      | unknownMode word => exact .unknownMode word
      | badPattern text => exact .badPattern text
  | violated v => exact .violated v

theorem readTrace_eq_ok {t : Trace} :
    readTrace readers w path = .ok t ↔ Accepts readers w path t := by
  constructor
  · intro run
    rw [readTrace] at run
    split at run
    · cases run
    · next bytes read =>
        split at run
        · cases run
        · next text decoded =>
            split at run
            · cases run
            · next t' parsed =>
                split at run
                · cases run
                · next valid =>
                    cases run
                    exact ⟨bytes, text, read, decoded, parsed, valid⟩
  · rintro ⟨bytes, text, read, decoded, parsed, valid⟩
    simp only [readTrace, read, decoded, parsed, valid]

theorem readTrace_eq_error {cause : Failure} :
    readTrace readers w path = .error cause ↔ TraceStops readers w path cause := by
  constructor
  · intro run
    rw [readTrace] at run
    split at run
    · next e failed =>
        cases run
        exact .unreadable e failed
    · next bytes read =>
        split at run
        · next failed =>
            cases run
            exact .notText bytes read failed
        · next text decoded =>
            split at run
            · next reason failed =>
                cases run
                exact .malformed bytes text reason read decoded failed
            · next t parsed =>
                split at run
                · next fault failed =>
                    cases run
                    exact .invalid bytes text t fault read decoded parsed failed
                · cases run
  · intro stops
    cases stops with
    | unreadable e failed => simp only [readTrace, failed]
    | notText bytes read failed => simp only [readTrace, read, failed]
    | malformed bytes text reason read decoded failed =>
        simp only [readTrace, read, decoded, failed]
    | invalid bytes text t fault read decoded parsed failed =>
        simp only [readTrace, read, decoded, parsed, failed]

/-! ### The configuration -/

/-- What stands between the semicolons of the commands in the environment, but for blank entries. -/
def environmentEntries (w : Surroundings) : List (List Char) :=
  match w.environment "MEMSTAT_COMMANDS" with
  | some s => StatCommand.entries s.toList
  | none => []

/-- Why the commands cannot be read: those of the environment come first, then those of the
arguments. -/
inductive ConfigStops (w : Surroundings) (o : ReplayOptions) : ConfigError → Prop
  | environment (e : ConfigError)
      (failed : FirstError StatCommand.parseChars (environmentEntries w) e) : ConfigStops w o e
  | argument (e : ConfigError)
      (fine : ∀ entry ∈ environmentEntries w, ∃ c, StatCommand.parseChars entry = .ok c)
      (failed : FirstError StatCommand.parse o.commands e) : ConfigStops w o e

/-- The configuration of a replay. -/
structure Settings (w : Surroundings) (o : ReplayOptions) (config : StatConfig) : Prop where
  /-- A replay is always collected. -/
  enabled : config.enabled = true
  commands : ∃ inherited added, config.commands = inherited ++ added ∧
    List.Forall₂ (fun entry c => StatCommand.parseChars entry = .ok c) (environmentEntries w)
      inherited ∧
    List.Forall₂ (fun text c => StatCommand.parse text = .ok c) o.commands added
  humanReadable : config.humanReadable = true ↔
    o.human = true ∨ ∃ s, w.environment "MEMSTAT_HUMAN_READABLE" = some s ∧ TrueWord s
  minSize_asked : ∀ n, o.minSize = some n → config.minSize = n
  minSize_inherited : ∀ s n, o.minSize = none → w.environment "MEMSTAT_MIN_SIZE" = some s →
    Decimal s n → config.minSize = n
  minSize_default : o.minSize = none →
    (∀ s n, w.environment "MEMSTAT_MIN_SIZE" = some s → ¬ Decimal s n) → config.minSize = 0
  threads_inherited : ∀ s n, w.environment "MEMSTAT_THREADS" = some s → Decimal s n →
    config.threads = max n 1
  threads_default : (∀ s n, w.environment "MEMSTAT_THREADS" = some s → ¬ Decimal s n) →
    config.threads = 2

variable {o : ReplayOptions} {config : StatConfig}

/-- A number of the environment. -/
def numeral? (w : Surroundings) (name : String) : Option UInt64 :=
  (w.environment name).bind fun s => parseWord s.toList

theorem numeral?_eq_some {name : String} {n : UInt64} :
    numeral? w name = some n ↔ ∃ s, w.environment name = some s ∧ Decimal s n := by
  rw [numeral?, Option.bind_eq_some_iff]
  simp only [parseWord_eq_some]

theorem numeral?_eq_none {name : String} :
    numeral? w name = none ↔ ∀ s n, w.environment name = some s → ¬ Decimal s n := by
  rw [Option.eq_none_iff_forall_ne_some]
  simp only [ne_eq, numeral?_eq_some]
  grind

/-- The configuration of a replay with its commands. -/
def configOf (w : Surroundings) (o : ReplayOptions) (commands : List StatCommand) :
    StatConfig where
  enabled := true
  commands := commands
  humanReadable :=
    ((w.environment "MEMSTAT_HUMAN_READABLE").bind parseSwitch).getD false || o.human
  minSize := o.minSize.getD ((numeral? w "MEMSTAT_MIN_SIZE").getD 0)
  threads := ((numeral? w "MEMSTAT_THREADS").map (max · 1)).getD 2

theorem configFor_eq (w : Surroundings) (o : ReplayOptions) :
    configFor w o = (do
      let inherited ← (environmentEntries w).mapM StatCommand.parseChars
      let added ← o.commands.mapM StatCommand.parse
      return configOf w o (inherited ++ added)) := by
  rw [configFor, StatConfig.ofEnvironment, environmentEntries]
  unfold configOf numeral?
  cases (w.environment "MEMSTAT_THREADS").bind fun s => parseWord s.toList <;>
    cases w.environment "MEMSTAT_COMMANDS" with
    | none => rfl
    | some s =>
        dsimp only
        rw [StatCommand.parseList]
        cases (StatCommand.entries s.toList).mapM StatCommand.parseChars <;> rfl

/-- The words and numbers of a configuration are those of the options and the environment. -/
theorem settings_configOf {inherited added : List StatCommand}
    (first : List.Forall₂ (fun entry c => StatCommand.parseChars entry = .ok c)
      (environmentEntries w) inherited)
    (second : List.Forall₂ (fun text c => StatCommand.parse text = .ok c) o.commands added) :
    Settings w o (configOf w o (inherited ++ added)) where
  enabled := rfl
  commands := ⟨inherited, added, rfl, first, second⟩
  humanReadable := by
    have inherited : ((w.environment "MEMSTAT_HUMAN_READABLE").bind parseSwitch).getD false = true ↔
        ∃ s, w.environment "MEMSTAT_HUMAN_READABLE" = some s ∧ TrueWord s := by
      cases w.environment "MEMSTAT_HUMAN_READABLE" with
      | none => simp
      | some s =>
          simp only [Option.bind_some, Option.some.injEq, exists_eq_left', ← parseSwitch_eq_true]
          cases parseSwitch s <;> simp
    rw [configOf, Bool.or_eq_true, inherited, or_comm]
  minSize_asked n asked := by rw [configOf, asked]; rfl
  minSize_inherited s n unasked given decimal := by
    rw [configOf, unasked, numeral?_eq_some.mpr ⟨s, given, decimal⟩]
    rfl
  minSize_default unasked unreadable := by
    rw [configOf, unasked, numeral?_eq_none.mpr unreadable]
    rfl
  threads_inherited s n given decimal := by
    rw [configOf, numeral?_eq_some.mpr ⟨s, given, decimal⟩]
    rfl
  threads_default unreadable := by
    rw [configOf, numeral?_eq_none.mpr unreadable]
    rfl

theorem Settings.unique {config' : StatConfig} (h : Settings w o config)
    (h' : Settings w o config') : config = config' := by
  have commands : config.commands = config'.commands := by
    obtain ⟨inherited, added, eq, first, second⟩ := h.commands
    obtain ⟨inherited', added', eq', first', second'⟩ := h'.commands
    rw [← mapM_eq_ok] at first second first' second'
    cases first.symm.trans first'
    cases second.symm.trans second'
    rw [eq, eq']
  have human : config.humanReadable = config'.humanReadable :=
    Bool.eq_iff_iff.mpr (h.humanReadable.trans h'.humanReadable.symm)
  have minSize : config.minSize = config'.minSize := by
    cases asked : o.minSize with
    | some n => rw [h.minSize_asked n asked, h'.minSize_asked n asked]
    | none =>
        cases given : numeral? w "MEMSTAT_MIN_SIZE" with
        | some n =>
            obtain ⟨s, given, decimal⟩ := numeral?_eq_some.mp given
            rw [h.minSize_inherited s n asked given decimal,
              h'.minSize_inherited s n asked given decimal]
        | none =>
            have unreadable := numeral?_eq_none.mp given
            rw [h.minSize_default asked unreadable, h'.minSize_default asked unreadable]
  have threads : config.threads = config'.threads := by
    cases given : numeral? w "MEMSTAT_THREADS" with
    | some n =>
        obtain ⟨s, given, decimal⟩ := numeral?_eq_some.mp given
        rw [h.threads_inherited s n given decimal, h'.threads_inherited s n given decimal]
    | none =>
        have unreadable := numeral?_eq_none.mp given
        rw [h.threads_default unreadable, h'.threads_default unreadable]
  have enabled := h.enabled.trans h'.enabled.symm
  cases config
  cases config'
  simp_all

/-- The settings of a replay are what its configuration is made to be. -/
theorem configFor_eq_ok : configFor w o = .ok config ↔ Settings w o config := by
  rw [configFor_eq]
  constructor
  · intro run
    cases first : (environmentEntries w).mapM StatCommand.parseChars with
    | error e =>
        rw [first] at run
        cases run
    | ok inherited =>
        cases second : o.commands.mapM StatCommand.parse with
        | error e =>
            rw [first, second] at run
            cases run
        | ok added =>
            rw [first, second] at run
            cases run
            exact settings_configOf (mapM_eq_ok.mp first) (mapM_eq_ok.mp second)
  · intro settings
    obtain ⟨inherited, added, -, first, second⟩ := settings.commands
    rw [(settings_configOf first second).unique settings |>.symm, mapM_eq_ok.mpr first,
      mapM_eq_ok.mpr second]
    rfl

theorem configFor_eq_error {e : ConfigError} :
    configFor w o = .error e ↔ ConfigStops w o e := by
  rw [configFor_eq]
  cases first : (environmentEntries w).mapM StatCommand.parseChars with
  | error e' =>
      constructor
      · intro run
        cases run
        exact .environment e (mapM_eq_error.mp first)
      · intro stops
        cases stops with
        | environment failed =>
            cases first.symm.trans (mapM_eq_error.mpr failed)
            rfl
        | argument fine failed =>
            obtain ⟨before, entry, after, split, -, unread⟩ := mapM_eq_error.mp first
            obtain ⟨c, read⟩ := fine entry (by rw [split]; simp)
            cases read.symm.trans unread
  | ok inherited =>
      have fine : ∀ entry ∈ environmentEntries w, ∃ c, StatCommand.parseChars entry = .ok c := by
        intro entry mem
        obtain ⟨c, -, read⟩ := exists_of_forall₂ (mapM_eq_ok.mp first) mem
        exact ⟨c, read⟩
      cases second : o.commands.mapM StatCommand.parse with
      | error e' =>
          constructor
          · intro run
            cases run
            exact .argument e fine (mapM_eq_error.mp second)
          · intro stops
            cases stops with
            | environment failed => cases first.symm.trans (mapM_eq_error.mpr failed)
            | argument _ failed =>
                cases second.symm.trans (mapM_eq_error.mpr failed)
                rfl
      | ok added =>
          constructor
          · intro run
            cases run
          · intro stops
            cases stops with
            | environment failed => cases first.symm.trans (mapM_eq_error.mpr failed)
            | argument _ failed => cases second.symm.trans (mapM_eq_error.mpr failed)

end CommandLine

end ArenaPeak
