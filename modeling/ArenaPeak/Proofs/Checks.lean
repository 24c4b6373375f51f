import ArenaPeak.Proofs.Operations

/-!
A debug build beside a release build. An assertion that fails stops the debug build; otherwise both
come to related results. The relation is carried along sequences of steps, so it holds of a hook, of
a compilation and of a replay because it holds of each assertion. The two builds print different
lines, in which the debug build adds where the counter started, peaked and stands.
-/

namespace ArenaPeak

namespace Violation

/-- The violations that only a debug build looks for. -/
def asserted : Violation → Bool
  | .enabledTwice | .crashed => false
  | _ => true

/-- A run without failed assertions is not stopped by one. -/
theorem not_asserted {v : Violation} (passes : ∀ w, some v = some w → w.asserted = false) :
    v.asserted ≠ true := by
  rw [passes v rfl]
  exact Bool.false_ne_true

end Violation

/-- A debug build fails an assertion, or both builds fail alike, or they go on with related
results. -/
inductive Checks {α β : Type} (R : α → β → Prop) : Except Violation α → Except Violation β → Prop
  | asserted {v : Violation} (h : v.asserted = true) (r : Except Violation β) :
      Checks R (.error v) r
  | fails (v : Violation) : Checks R (.error v) (.error v)
  | goes {a : α} {b : β} (h : R a b) : Checks R (.ok a) (.ok b)

namespace Checks

variable {α β γ δ : Type} {R : α → β → Prop} {S : γ → δ → Prop}
variable {x : Except Violation α} {y : Except Violation β}

theorem bind (h : Checks R x y) {g : α → Except Violation γ} {k : β → Except Violation δ}
    (next : ∀ a b, R a b → Checks S (g a) (k b)) : Checks S (x >>= g) (y >>= k) := by
  cases h with
  | asserted failed r => exact .asserted failed _
  | fails v => exact .fails v
  | goes related => exact next _ _ related

/-- The rule for steps that come to the same result. -/
theorem bind_eq {x y : Except Violation α} (h : Checks Eq x y)
    {g : α → Except Violation γ} {k : α → Except Violation δ}
    (next : ∀ a, Checks S (g a) (k a)) : Checks S (x >>= g) (y >>= k) :=
  h.bind fun a _ same => same ▸ next a

theorem assert (holds : Bool) {v : Violation} (h : v.asserted = true) :
    Checks Eq (Flavour.debug.assert holds v) (Flavour.release.assert holds v) := by
  rw [Flavour.assert_release]
  cases holds with
  | true =>
      rw [Flavour.assert_true]
      exact .goes rfl
  | false =>
      rw [Flavour.assert_debug_false]
      exact .asserted h _

end Checks

namespace PeakCounter

/-- What a debug build shows beyond a release build. -/
def course (c : PeakCounter) : String :=
  " (" ++ toString c.start.toNat ++ "->" ++ toString c.peak.toNat ++ "->" ++
    toString c.current.toNat ++ ")"

theorem display_debug (c : PeakCounter) : c.display .debug = c.display .release ++ c.course := by
  simp only [display, course, String.append_assoc, String.append_empty]

theorem account_checks (c : PeakCounter) (delta : Int64) (tag : ArenaTag) (live : Option UInt32) :
    Checks Eq (c.account .debug delta tag live) (c.account .release delta tag live) := by
  refine (Checks.assert _ rfl).bind_eq fun _ => ?_
  dsimp only
  split
  · exact .goes rfl
  · exact (Checks.assert _ rfl).bind_eq fun _ => .goes rfl

end PeakCounter

theorem Context.account_checks (c : Context) (delta : Int64) (tag : ArenaTag) :
    Checks Eq (c.account .debug delta tag) (c.account .release delta tag) :=
  (c.counter.account_checks delta tag _).bind_eq fun _ => .goes rfl

/-! ### Inline lines -/

/-- Two lines are the same but for what a debug build adds to the counter. -/
def LineAlike (debug release : String) : Prop :=
  debug = release ∨ ∃ line c, debug = line ++ PeakCounter.course c ++ "\n" ∧ release = line ++ "\n"

theorem lineAlike_inlineLine (kind : CompilerKind) (m : Method) (c : PeakCounter) :
    LineAlike (Service.inlineLine .debug kind m c) (Service.inlineLine .release kind m c) := by
  refine .inr ⟨kind.name ++ " Arena usage " ++ m.display ++ ": " ++ c.display .release, c, ?_, rfl⟩
  simp only [Service.inlineLine, PeakCounter.display_debug, String.append_assoc]

namespace InlineOutput

/-- Two outputs with lines that are alike, one by one. -/
structure Alike (o o' : InlineOutput) : Prop where
  writable : o.writable = o'.writable
  lines : List.Forall₂ LineAlike o.lines o'.lines

theorem alike_refl (o : InlineOutput) : o.Alike o :=
  ⟨rfl, List.forall₂_same.mpr fun _ _ => .inl rfl⟩

theorem Alike.print {o o' : InlineOutput} (alike : o.Alike o') {line line' : String}
    (same : LineAlike line line') : (o.print line).Alike (o'.print line') := by
  rw [InlineOutput.print, InlineOutput.print, ← alike.writable]
  split
  · exact ⟨rfl, List.rel_append alike.lines (.cons same .nil)⟩
  · exact alike

end InlineOutput

namespace Service

/-- Two services that differ in what they have printed only. -/
structure Alike (s s' : Service) : Prop where
  enabled : s.enabled = s'.enabled
  table : s.table = s'.table
  inline : s.inline.Alike s'.inline

variable {s s' : Service}

theorem alike_refl (s : Service) : s.Alike s :=
  ⟨rfl, rfl, s.inline.alike_refl⟩

theorem Alike.held (alike : s.Alike s') : s.held = s'.held := by
  rw [Service.held, Service.held, alike.table]

theorem Alike.enable (alike : s.Alike s') : Checks Alike s.enable s'.enable := by
  rw [enable_eq, enable_eq, ← alike.enabled, ← alike.table]
  split
  · exact .fails _
  · exact .goes ⟨rfl, rfl, alike.inline⟩

theorem Alike.commit (alike : s.Alike s') (table : StatTable) (c : Context) (t : CompileTask)
    (time : Seconds) :
    (s.commit .debug table c t time).Alike (s'.commit .release table c t time) := by
  refine ⟨alike.enabled, rfl, ?_⟩
  simp only [Service.commit]
  split
  · exact alike.inline.print (lineAlike_inlineLine t.kind t.method c.counter)
  · exact alike.inline

theorem Alike.start (alike : s.Alike s') (c : Context) :
    Checks Eq (s.start .debug c) (s'.start .release c) := by
  rw [Service.start, Service.start, ← alike.enabled]
  exact (Checks.assert _ rfl).bind_eq fun _ => .goes rfl

theorem Alike.arena (alike : s.Alike s') (c : Context) (delta : Int64) (tag : ArenaTag) :
    Checks Eq (s.arena .debug c delta tag) (s'.arena .release c delta tag) := by
  rw [Service.arena, Service.arena, ← alike.enabled]
  refine (Checks.assert _ rfl).bind_eq fun _ => ?_
  split
  · exact c.account_checks delta tag
  · exact .goes rfl

theorem Alike.finish (alike : s.Alike s') (symbols : SymbolStore) (c : Context) (time : Seconds) :
    Checks (fun r r' => r.1.Alike r'.1 ∧ r.2 = r'.2) (s.finish .debug symbols c time)
      (s'.finish .release symbols c time) := by
  rw [Service.finish, Service.finish, ← alike.enabled, ← alike.table]
  refine (Checks.assert _ rfl).bind_eq fun _ => ?_
  cases s.table with
  | none => exact .goes ⟨alike, rfl⟩
  | some table =>
      refine (Checks.assert _ rfl).bind_eq fun _ => ?_
      cases c.task with
      | none => exact .goes ⟨alike, rfl⟩
      | some t =>
          exact (Checks.assert _ rfl).bind_eq fun _ => .goes ⟨alike.commit table c t time, rfl⟩

end Service

namespace Guard

variable {s s' : Service}

theorem enter_checks (alike : s.Alike s') (c : Context) :
    Checks Eq (enter .debug s c) (enter .release s' c) := by
  have same : tracks s c = tracks s' c := by rw [tracks, tracks, alike.enabled]
  rw [enter_eq, enter_eq, same]
  exact .goes rfl

theorem arena_checks (alike : s.Alike s') (c : Context) (delta : Int64) (tag : ArenaTag) :
    Checks Eq (arena .debug s c delta tag) (arena .release s' c delta tag) := by
  rw [arena, arena, ← alike.enabled]
  split
  · exact alike.arena c delta tag
  · exact .goes rfl

theorem drop_checks (alike : s.Alike s') (g : Guard) (symbols : SymbolStore) (c : Context)
    (time : Seconds) :
    Checks (fun r r' => r.1.Alike r'.1 ∧ r.2 = r'.2) (g.drop .debug s symbols c time)
      (g.drop .release s' symbols c time) := by
  rw [drop, drop]
  split
  · exact alike.finish symbols c time
  · exact .goes ⟨alike, rfl⟩

end Guard

/-! ### Replays -/

/-- Two sites that differ in what has been printed only. -/
structure Site.Alike (s s' : Site) : Prop where
  service : s.service.Alike s'.service
  symbols : s.symbols = s'.symbols
  outside : s.outside = s'.outside
  nextThread : s.nextThread = s'.nextThread

theorem Site.Alike.held {s s' : Site} (alike : s.Alike s') : s.held = s'.held := by
  rw [Site.held, Site.held, alike.outside, alike.service.held]

namespace Replay

variable {config : StatConfig}

theorem playEvents_checks {s s' : Service} (alike : s.Alike s') (ctx : Context)
    (es : List TraceEvent) :
    Checks Eq (playEvents .debug s ctx es) (playEvents .release s' ctx es) := by
  induction es generalizing ctx with
  | nil => exact .goes rfl
  | cons e es ih =>
      refine Checks.bind_eq ?_ ih
      exact (Guard.arena_checks alike _ e.delta e.tag).bind_eq fun _ => .goes rfl

theorem compileOne_checks {site site' : Site} (alike : site.Alike site') (ctx : Context)
    (c : TraceCompilation) (time : Seconds) :
    Checks (fun r r' => r.1 = r'.1 ∧ r.2.1.Alike r'.2.1 ∧ r.2.2 = r'.2.2)
      (compileOne .debug config site ctx c time) (compileOne .release config site' ctx c time) := by
  have same : interned site ctx c = interned site' ctx c := by
    rw [interned, interned, alike.held, alike.symbols]
  have directive (m : Method) :
      directiveOf site.service config c m = directiveOf site'.service config c m := by
    rw [directiveOf, directiveOf, alike.service.enabled]
  rw [compileOne_bind, compileOne_bind, ← same, ← directive]
  refine (Guard.enter_checks alike.service _).bind_eq fun entered => ?_
  refine (playEvents_checks alike.service _ c.events).bind_eq fun ctx' => ?_
  refine (Guard.drop_checks alike.service entered.1 _ ctx' time).bind fun r r' both => ?_
  exact .goes ⟨rfl, ⟨both.1, both.2, alike.outside, alike.nextThread⟩, rfl⟩

/-- Two replays that have come equally far. -/
structure Progress.Alike (p p' : Progress) : Prop where
  site : p.site.Alike p'.site
  workers : p.workers = p'.workers
  tracked : p.tracked = p'.tracked

theorem alike_start {site site' : Site} (alike : site.Alike site') (workers : Nat) :
    (Progress.start site workers).Alike (.start site' workers) := by
  rw [Progress.start, Progress.start, ← alike.nextThread]
  exact ⟨⟨alike.service, alike.symbols, alike.outside, rfl⟩, rfl, rfl⟩

theorem turn_checks {p p' : Progress} (alike : p.Alike p') (t : Turn) :
    Checks Progress.Alike (turn .debug config p t) (turn .release config p' t) := by
  rw [turn, turn, ← alike.workers]
  cases p.workers[t.worker]? with
  | none => exact .goes alike
  | some ctx =>
      refine (compileOne_checks alike.site ctx t.compilation t.time).bind fun r r' same => ?_
      obtain ⟨active, site, ctx'⟩ := r
      obtain ⟨active', site', ctx''⟩ := r'
      obtain ⟨(rfl : active = active'), site, (rfl : ctx' = ctx'')⟩ := same
      refine .goes ⟨site, ?_, ?_⟩
      · simp only [alike.workers]
      · simp only [alike.tracked]

variable (config) in
theorem play_checks {p p' : Progress} (alike : p.Alike p') (turns : List Turn) :
    Checks Progress.Alike (play .debug config p turns) (play .release config p' turns) := by
  induction turns generalizing p p' with
  | nil => exact .goes alike
  | cons head turns ih => exact (turn_checks alike head).bind fun _ _ next => ih next

end Replay

/-! ### Release builds -/

/-- Nothing stops on the way. -/
def Passes {α : Type} (x : Except Violation α) : Prop :=
  ∃ a, x = .ok a

namespace Passes

variable {α β : Type}

theorem ok (a : α) : Passes (.ok a) :=
  ⟨a, rfl⟩

theorem bind {x : Except Violation α} (h : Passes x) {g : α → Except Violation β}
    (next : ∀ a, Passes (g a)) : Passes (x >>= g) := by
  obtain ⟨a, rfl⟩ := h
  exact next a

theorem assert (holds : Bool) (v : Violation) : Passes (Flavour.release.assert holds v) :=
  ⟨(), rfl⟩

end Passes

theorem PeakCounter.account_passes (c : PeakCounter) (delta : Int64) (tag : ArenaTag)
    (live : Option UInt32) : Passes (c.account .release delta tag live) := by
  refine (Passes.assert _ _).bind fun _ => ?_
  dsimp only
  split
  · exact .ok _
  · exact (Passes.assert _ _).bind fun _ => .ok _

theorem Context.account_passes (c : Context) (delta : Int64) (tag : ArenaTag) :
    Passes (c.account .release delta tag) :=
  (c.counter.account_passes delta tag _).bind fun _ => .ok _

namespace Service

variable (s : Service) (c : Context)

theorem start_passes : Passes (s.start .release c) :=
  (Passes.assert _ _).bind fun _ => .ok _

theorem arena_passes (delta : Int64) (tag : ArenaTag) : Passes (s.arena .release c delta tag) := by
  refine (Passes.assert _ _).bind fun _ => ?_
  split
  · exact c.account_passes delta tag
  · exact .ok _

theorem finish_passes (symbols : SymbolStore) (time : Seconds) :
    Passes (s.finish .release symbols c time) := by
  refine (Passes.assert _ _).bind fun _ => ?_
  cases s.table with
  | none => exact .ok _
  | some table =>
      refine (Passes.assert _ _).bind fun _ => ?_
      cases c.task with
      | none => exact .ok _
      | some t => exact (Passes.assert _ _).bind fun _ => .ok _

end Service

namespace Guard

variable (s : Service) (c : Context)

theorem enter_passes : Passes (enter .release s c) := by
  rw [enter_eq]
  exact .ok _

theorem arena_passes (delta : Int64) (tag : ArenaTag) : Passes (arena .release s c delta tag) := by
  rw [arena]
  split
  · exact s.arena_passes c delta tag
  · exact .ok _

theorem drop_passes (g : Guard) (symbols : SymbolStore) (time : Seconds) :
    Passes (g.drop .release s symbols c time) := by
  rw [drop]
  split
  · exact s.finish_passes c symbols time
  · exact .ok _

end Guard

namespace Replay

variable (config : StatConfig)

theorem playEvents_passes (s : Service) (ctx : Context) (es : List TraceEvent) :
    Passes (playEvents .release s ctx es) := by
  induction es generalizing ctx with
  | nil => exact .ok _
  | cons e es ih => exact ((Guard.arena_passes s _ e.delta e.tag).bind fun _ => .ok _).bind ih

theorem compileOne_passes (site : Site) (ctx : Context) (c : TraceCompilation) (time : Seconds) :
    Passes (compileOne .release config site ctx c time) := by
  rw [compileOne_bind]
  exact (Guard.enter_passes site.service _).bind fun entered =>
    (playEvents_passes site.service _ c.events).bind fun ctx' =>
      (Guard.drop_passes site.service ctx' entered.1 _ time).bind fun _ => .ok _

theorem play_passes (p : Progress) (turns : List Turn) :
    Passes (play .release config p turns) := by
  induction turns generalizing p with
  | nil => exact .ok _
  | cons head turns ih =>
      refine Passes.bind ?_ ih
      rw [turn]
      cases p.workers[head.worker]? with
      | none => exact .ok _
      | some ctx =>
          exact (compileOne_passes config p.site ctx head.compilation head.time).bind fun _ => .ok _

end Replay

end ArenaPeak
