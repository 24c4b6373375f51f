import ArenaPeak.Proofs.Compilation
import ArenaPeak.Proofs.Records

/-!
The records of a site, by place. A tracked compilation applies its commit to the record of the place
it is named by; whatever else happens in a compilation, no record changes.
-/

namespace ArenaPeak

namespace Site

/-- The symbols are sound, and recorded methods are pinned at their places. -/
structure Sound (site : Site) : Prop where
  symbols : site.symbols.Sound
  recorded : ∀ t, site.service.table = some t → Recorded site.symbols t

def recordAt (site : Site) (p : Place) : Option StatRecord :=
  site.service.table.bind (·.recordAt site.symbols p)

/-- Looking a name up finds the record of its place. -/
theorem record?_eq {site : Site} (h : site.Sound) (table : Nat) (name : MethodName) :
    site.record? table name = site.recordAt ⟨table, name⟩ := by
  rw [record?, recordAt, Service.get?]
  cases on : site.service.table with
  | none => rfl
  | some t => exact StatTable.get?_internMethod h.symbols (h.recorded t on) site.held ⟨table, name⟩

end Site

namespace Replay

/-- The place a compilation is recorded under. -/
def placeOf (c : TraceCompilation) : Place :=
  ⟨0, nameOf c⟩

variable (f : Flavour) (config : StatConfig) {site : Site} (ctx : Context) (c : TraceCompilation)
variable (time : Seconds) {table : StatTable}

theorem interned_at (h : site.Sound) :
    (interned site ctx c).1.At (interned site ctx c).2 (placeOf c) :=
  SymbolStore.internMethod_at h.symbols (ctx.held ++ site.held) (placeOf c)

theorem sound_interned (h : site.Sound) : (interned site ctx c).2.Sound :=
  SymbolStore.sound_internMethod h.symbols _ _ _

theorem keeps_interned (h : site.Sound) : site.symbols.Keeps (interned site ctx c).2 :=
  SymbolStore.keeps_internMethod h.symbols _ _ _

theorem recorded_interned (h : site.Sound) (on : site.service.table = some table) :
    Recorded (interned site ctx c).2 table :=
  (h.recorded table on).mono h.symbols (keeps_interned ctx c h)

theorem sound_left_untracked (h : site.Sound) :
    { site with symbols := (interned site ctx c).2 }.Sound where
  symbols := sound_interned ctx c h
  recorded _ on := recorded_interned ctx c h on

theorem keeps_pinned (site : Site) :
    (interned site ctx c).2.Keeps ((interned site ctx c).2.pinMethod (interned site ctx c).1) :=
  SymbolStore.keeps_pinMethod _ _

theorem sound_pinned (h : site.Sound) :
    ((interned site ctx c).2.pinMethod (interned site ctx c).1).Sound :=
  SymbolStore.sound_pinMethod (sound_interned ctx c h) (interned_at ctx c h)

theorem recorded_pinned (h : site.Sound) (on : site.service.table = some table) :
    Recorded ((interned site ctx c).2.pinMethod (interned site ctx c).1) table :=
  (recorded_interned ctx c h on).mono (sound_interned ctx c h) (keeps_pinned ctx c site)

theorem pinned_interned :
    ∀ s ∈ (interned site ctx c).1.symbols,
      ((interned site ctx c).2.pinMethod (interned site ctx c).1).isPermanent s = true :=
  fun _ hs => SymbolStore.isPermanent_pinMethod_self _ hs

theorem sound_left (h : site.Sound) (on : site.service.On table) :
    (left f config site ctx c time table).Sound := by
  by_cases tracked : tracks config c = true
  · have symbols := left_symbols f config site ctx c time table tracked
    refine ⟨?_, ?_⟩
    · rw [symbols]
      exact sound_pinned ctx c h
    · intro t eq
      rw [(left_on f config site ctx c time on tracked).table] at eq
      cases eq
      rw [symbols]
      exact StatTable.recorded_upsert (recorded_pinned ctx c h on.table)
        ((interned_at ctx c h).pinMethod _) (pinned_interned ctx c) _
  · rw [left_untracked f config site ctx c time table tracked]
    exact sound_left_untracked ctx c h

theorem recordAt_left (h : site.Sound) (on : site.service.On table) (q : Place) :
    (left f config site ctx c time table).recordAt q =
      if tracks config c = true ∧ q = placeOf c then
        some (((site.recordAt q).getD (.fresh (interned site ctx c).1)).apply
          (commitOf config site ctx c time))
      else site.recordAt q := by
  have before : site.recordAt q = table.recordAt site.symbols q := by
    rw [Site.recordAt, on.table]
    rfl
  have same : table.recordAt (interned site ctx c).2 q = site.recordAt q := by
    rw [before]
    exact StatTable.recordAt_congr h.symbols (h.recorded table on.table)
      (keeps_interned ctx c h) q
  by_cases tracked : tracks config c = true
  · have pinned : table.recordAt ((interned site ctx c).2.pinMethod (interned site ctx c).1) q =
        site.recordAt q := by
      rw [← same]
      exact StatTable.recordAt_congr (sound_interned ctx c h) (recorded_interned ctx c h on.table)
        (keeps_pinned ctx c site) q
    rw [Site.recordAt, left_symbols f config site ctx c time table tracked,
      (left_on f config site ctx c time on tracked).table, Option.bind_some,
      StatTable.recordAt_upsert (sound_pinned ctx c h) (recorded_pinned ctx c h on.table)
        ((interned_at ctx c h).pinMethod _) (pinned_interned ctx c)]
    by_cases here : q = placeOf c
    · rw [if_pos here, if_pos ⟨tracked, here⟩, ← here, pinned]
    · rw [if_neg here, if_neg fun both => here both.2, pinned]
  · rw [if_neg fun both => tracked both.1, left_untracked f config site ctx c time table tracked,
      Site.recordAt, on.table]
    exact same

end Replay

end ArenaPeak
