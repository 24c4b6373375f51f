import ArenaPeak.Guard

/-!
What the hooks do when their contracts are met, the same in both flavours. The hooks look at the
switch and at the table apart; that a service is on exactly if it has a table holds of a new service
and is kept by all that is done with one.
-/

namespace ArenaPeak

/-- Steps in sequence come to an end only if each does. -/
theorem exists_of_bind_eq_ok {α β : Type} {x : Except Violation α} {g : α → Except Violation β}
    {b : β} (h : x >>= g = .ok b) : ∃ a, x = .ok a ∧ g a = .ok b := by
  cases x with
  | error v => cases h
  | ok a => exact ⟨a, rfl, h⟩

namespace Service

variable (f : Flavour) {s s' : Service} {c : Context} {table : StatTable}

/-- The switch is on exactly if there is a table. -/
def Switched (s : Service) : Prop :=
  s.enabled = s.table.isSome

/-- The switch is off, and there is no table. -/
structure Off (s : Service) : Prop where
  enabled : s.enabled = false
  table : s.table = none

/-- The switch is on, and there is a table. -/
structure On (s : Service) (table : StatTable) : Prop where
  enabled : s.enabled = true
  table : s.table = some table

theorem On.unique {table' : StatTable} (on : s.On table) (on' : s.On table') : table = table' :=
  Option.some.inj (on.table.symm.trans on'.table)

theorem On.switched (on : s.On table) : s.Switched := by
  rw [Switched, on.enabled, on.table]
  rfl

theorem Off.switched (off : s.Off) : s.Switched := by
  rw [Switched, off.enabled, off.table]
  rfl

theorem switched_new (inline : InlineOutput) : (new inline).Switched :=
  rfl

theorem Switched.on (switched : s.Switched) (there : s.table = some table) : s.On table where
  enabled := by
    rw [switched, there]
    rfl
  table := there

theorem Switched.exists_on (switched : s.Switched) (enabled : s.enabled = true) :
    ∃ table, s.On table := by
  obtain ⟨table, there⟩ := Option.isSome_iff_exists.mp (switched.symm.trans enabled)
  exact ⟨table, enabled, there⟩

theorem Switched.off (switched : s.Switched) (off : s.enabled = false) : s.Off where
  enabled := off
  table := Option.isNone_iff_eq_none.mp (Option.isSome_eq_false_iff.mp (switched.symm.trans off))

/-- A service is off and without a table, or on and with one. -/
theorem Switched.cases (switched : s.Switched) : s.Off ∨ ∃ table, s.On table := by
  cases enabled : s.enabled with
  | false => exact .inl (switched.off enabled)
  | true => exact .inr (switched.exists_on enabled)

/-- Switching on makes the table and flips the switch, of a service that has had neither. -/
theorem enable_eq (s : Service) :
    s.enable =
      if s.enabled || s.table.isSome then .error .enabledTwice
      else .ok { s with enabled := true, table := some .empty } := by
  rw [enable, createTable]
  cases s.enabled <;> cases s.table <;> rfl

theorem enable_off (off : s.Off) :
    s.enable = .ok { s with enabled := true, table := some .empty } := by
  rw [enable_eq, off.enabled, off.table]
  rfl

theorem enable_on (on : s.enabled = true) : s.enable = .error .enabledTwice := by
  rw [enable_eq, on]
  rfl

theorem commit_on (on : s.On table) (c : Context) (t : CompileTask) (time : Seconds) :
    (s.commit f table c t time).On (table.upsert t.method (commitOf c t time)) :=
  ⟨on.enabled, rfl⟩

theorem start_on (on : s.enabled = true) : s.start f c = .ok c.startEpisode := by
  simp [start, on, Flavour.assert_true, bind, Except.bind, pure, Except.pure]

theorem arena_on (on : s.enabled = true) (delta : Int64) (tag : ArenaTag) :
    s.arena f c delta tag = c.account f delta tag := by
  simp [arena, on, Flavour.assert_true, bind, Except.bind]

theorem finish_on (on : s.On table) {t : CompileTask} (task : c.task = some t)
    (collects : t.directive.collects = true) (symbols : SymbolStore) (time : Seconds) :
    s.finish f symbols c time =
      .ok (s.commit f table c t time, symbols.pinMethod t.method) := by
  simp [finish, on.enabled, on.table, task, collects, Flavour.assert_true, bind, Except.bind, pure,
    Except.pure]

end Service

namespace Guard

variable (f : Flavour) {s : Service} {c : Context}

/-- A guard is active when what it spans is tracked, and only then the episode begins. -/
theorem enter_eq (s : Service) (c : Context) :
    enter f s c = .ok (⟨tracks s c⟩, if tracks s c then c.startEpisode else c) := by
  rw [enter]
  by_cases h : tracks s c = true
  · have on : s.enabled = true := (Bool.and_eq_true _ _ ▸ h : _ ∧ _).1
    simp [h, Service.start_on f on, bind, Except.bind, pure, Except.pure]
  · simp [h, pure, Except.pure]

theorem arena_on (on : s.enabled = true) (delta : Int64) (tag : ArenaTag) :
    arena f s c delta tag = c.account f delta tag := by
  simp [arena, on, Service.arena_on f on]

theorem arena_off (off : s.enabled = false) (delta : Int64) (tag : ArenaTag) :
    arena f s c delta tag = .ok (false, c) := by
  simp [arena, off]

end Guard

end ArenaPeak
