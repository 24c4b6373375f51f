import ArenaPeak.Proofs.Accounting
import ArenaPeak.Proofs.Guards

/-!
Steps carried out in place. A hook makes its checks and its changes one after the other, and where
it fails, whatever it has changed by then stays changed. Every check stands before the first change,
with two exceptions. That a table is new is asserted when it may have been made already, and fails
only where none was made; that a new peak comes from an allocation is asserted when the totals have
been moved already, and holds of every counter that stands no higher than its peak. So a step
carried out in place comes to what it comes to as a function.
-/

namespace ArenaPeak

/-- A program on a state. When it fails, what it has changed by then stays changed. -/
def InPlace (ε σ α : Type) : Type :=
  σ → Except ε α × σ

namespace InPlace

variable {ε σ τ α : Type}

instance : Monad (InPlace ε σ) where
  pure a := fun s => (.ok a, s)
  bind p next := fun s =>
    match p s with
    | (.ok a, s) => next a s
    | (.error e, s) => (.error e, s)

def read : InPlace ε σ σ :=
  fun s => (.ok s, s)

def change (g : σ → σ) : InPlace ε σ Unit :=
  fun s => (.ok (), g s)

/-- Goes on with a result, or fails with an error, and changes nothing. -/
def check (r : Except ε α) : InPlace ε σ α :=
  fun s => (r, s)

/-- A program on a part of the state. -/
def on (get : σ → τ) (put : σ → τ → σ) (p : InPlace ε τ α) : InPlace ε σ α := fun s =>
  ((p (get s)).1, put s (p (get s)).2)

/-- What a computation comes to on a state, which stays as it is where the computation fails. -/
def settled (s : σ) : Except ε (α × σ) → Except ε α × σ
  | .ok r => (.ok r.1, r.2)
  | .error e => (.error e, s)

variable {β : Type}

@[simp]
theorem read_bind (next : σ → InPlace ε σ β) (s : σ) : (read >>= next) s = next s s :=
  rfl

@[simp]
theorem change_bind (g : σ → σ) (next : Unit → InPlace ε σ β) (s : σ) :
    (change g >>= next) s = next () (g s) :=
  rfl

@[simp]
theorem check_ok_bind (a : α) (next : α → InPlace ε σ β) (s : σ) :
    (check (.ok a) >>= next) s = next a s :=
  rfl

theorem bind_ok {p : InPlace ε σ α} {s s' : σ} {a : α} (h : p s = (.ok a, s'))
    (next : α → InPlace ε σ β) : (p >>= next) s = next a s' := by
  simp only [bind, h]

theorem bind_error {p : InPlace ε σ α} {s s' : σ} {e : ε} (h : p s = (.error e, s'))
    (next : α → InPlace ε σ β) : (p >>= next) s = (.error e, s') := by
  simp only [bind, h]

/-- A program on a part of the state, that leaves the part as it is where it fails. -/
theorem on_settled (get : σ → τ) (put : σ → τ → σ) {p : InPlace ε τ α} {s : σ}
    {x : Except ε (α × τ)} (h : p (get s) = settled (get s) x) (same : put s (get s) = s) :
    on get put p s = settled s (x.map fun r => (r.1, put s r.2)) := by
  rw [on, h]
  cases x with
  | ok r => rfl
  | error e => exact Prod.ext rfl same

/-- An answer made from what a program yields. -/
theorem map_settled {p : InPlace ε σ α} {s : σ} {x : Except ε (α × σ)} (h : p s = settled s x)
    (g : α → β) : (p >>= fun a => pure (g a)) s = settled s (x.map fun r => (g r.1, r.2)) := by
  cases x with
  | ok r => exact bind_ok h _
  | error e => exact bind_error h _

end InPlace

open InPlace

/-! ### Sound counters -/

namespace PeakCounter

variable {f : Flavour} {c : PeakCounter} {delta : Int64} {tag : ArenaTag} {live : Option UInt32}

theorem eq_add_of_account {r : Bool × PeakCounter} (h : c.account f delta tag live = .ok r) :
    r.2 = c.add delta tag live := by
  obtain ⟨_, -, h⟩ := exists_of_bind_eq_ok h
  dsimp only at h
  rw [move_peak] at h
  rw [add]
  split at h
  · next low =>
      cases h
      rw [if_pos low]
  · next high =>
      obtain ⟨_, -, h⟩ := exists_of_bind_eq_ok h
      cases h
      rw [if_neg high]

end PeakCounter

namespace Context

variable {f : Flavour} {c c' : Context} {delta : Int64} {tag : ArenaTag} {b : Bool}

theorem sound_account (sound : c.counter.Sound) (h : c.account f delta tag = .ok (b, c')) :
    c'.counter.Sound := by
  obtain ⟨r, counted, h⟩ := exists_of_bind_eq_ok h
  cases h
  rw [PeakCounter.eq_add_of_account counted]
  exact PeakCounter.sound_add delta tag _ sound

end Context

namespace Service

variable {f : Flavour} {s : Service} {c c' : Context}

theorem sound_arena (sound : c.counter.Sound) {delta : Int64} {tag : ArenaTag} {b : Bool}
    (h : s.arena f c delta tag = .ok (b, c')) : c'.counter.Sound := by
  obtain ⟨_, -, h⟩ := exists_of_bind_eq_ok h
  split at h
  · exact Context.sound_account sound h
  · cases h
    exact sound

end Service

theorem Guard.sound_arena {f : Flavour} {s : Service} {c c' : Context} (sound : c.counter.Sound)
    {delta : Int64} {tag : ArenaTag} {b : Bool} (h : Guard.arena f s c delta tag = .ok (b, c')) :
    c'.counter.Sound := by
  rw [Guard.arena] at h
  split at h
  · exact Service.sound_arena sound h
  · cases h
    exact sound

/-! ### Hooks -/

namespace PeakCounter

def moveInPlace (delta : Int64) (tag : ArenaTag) : InPlace Violation PeakCounter Unit := do
  change fun c => { c with current := shift c.current delta }
  match tag with
  | .node => change fun c => { c with node := shift c.node delta }
  | .resource => change fun c => { c with resource := shift c.resource delta }
  | .handle | .other => pure ()

def sampleInPlace (live : Option UInt32) : InPlace Violation PeakCounter Unit := do
  change fun c => { c with peak := c.current }
  change fun c => { c with nodeAtPeak := c.node }
  change fun c => { c with resourceAtPeak := c.resource }
  match live with
  | some n => change fun c => { c with liveNodesAtPeak := n }
  | none => pure ()

/-- Accounting in place, one field after the other. -/
def accountInPlace (f : Flavour) (delta : Int64) (tag : ArenaTag) (live : Option UInt32) :
    InPlace Violation PeakCounter Bool := do
  let c ← read
  check (f.assert (decide (0 ≤ c.current.toNat + delta.toInt))
    (.freedTooMuch delta c.current c.start c.peak))
  moveInPlace delta tag
  let c ← read
  if c.current ≤ c.peak then return false
  else
    check (f.assert (decide (0 < delta)) (.peakWithoutGrowth c.current c.start c.peak))
    sampleInPlace live
    return true

theorem moveInPlace_eq (c : PeakCounter) (delta : Int64) (tag : ArenaTag) :
    moveInPlace delta tag c = (.ok (), c.move delta tag) := by
  cases tag <;> rfl

theorem sampleInPlace_eq (c : PeakCounter) (live : Option UInt32) :
    sampleInPlace live c = (.ok (), c.sample live) := by
  cases live <;> rfl

/-- The assertion on new peaks comes late, but it holds of a counter at or below its peak. -/
theorem accountInPlace_eq (f : Flavour) {c : PeakCounter} (below : c.current ≤ c.peak)
    (delta : Int64) (tag : ArenaTag) (live : Option UInt32) :
    accountInPlace f delta tag live c = settled c (c.account f delta tag live) := by
  rw [accountInPlace, account, read_bind]
  cases f.assert (decide (0 ≤ c.current.toNat + delta.toInt))
      (.freedTooMuch delta c.current c.start c.peak) with
  | error v => rfl
  | ok _ =>
      rw [check_ok_bind, bind_ok (moveInPlace_eq c delta tag), read_bind]
      change _ = settled c (if (c.move delta tag).current ≤ (c.move delta tag).peak then _ else _)
      by_cases low : (c.move delta tag).current ≤ (c.move delta tag).peak
      · rw [if_pos low, if_pos low]
        rfl
      · have grows : 0 < delta := by
          rw [move_current, move_peak] at low
          exact pos_of_lt_shift (UInt64.lt_of_le_of_lt below (UInt64.not_le.mp low))
        rw [if_neg low, if_neg low, decide_eq_true grows, Flavour.assert_true, check_ok_bind,
          bind_ok (sampleInPlace_eq _ live)]
        rfl

end PeakCounter

namespace Context

def onCounter {α : Type} (p : InPlace Violation PeakCounter α) : InPlace Violation Context α :=
  on (·.counter) (fun c counter => { c with counter }) p

def accountInPlace (f : Flavour) (delta : Int64) (tag : ArenaTag) :
    InPlace Violation Context Bool := do
  let c ← read
  onCounter (PeakCounter.accountInPlace f delta tag (c.task.bind (·.nodeSource)))

end Context

namespace Service

def createTableInPlace : InPlace Violation Service Bool := do
  let s ← read
  match s.table with
  | none =>
      change fun s => { s with table := some .empty }
      return true
  | some _ => return false

/-- Between making the table and flipping the switch there is a check: that the table is new. -/
def enableInPlace : InPlace Violation Service Unit := do
  let s ← read
  let created ← if s.enabled then pure false else createTableInPlace
  check (if created then .ok () else .error .enabledTwice)
  change fun s => { s with enabled := true }

def startInPlace (f : Flavour) (s : Service) : InPlace Violation Context Unit := do
  check (f.assert s.enabled .notEnabled)
  if s.enabled then change (·.startEpisode) else return ()

def arenaInPlace (f : Flavour) (s : Service) (delta : Int64) (tag : ArenaTag) :
    InPlace Violation Context Bool := do
  check (f.assert s.enabled .notEnabled)
  if s.enabled then Context.accountInPlace f delta tag else return false

/-- What the end of a compilation changes: each symbol of the method is pinned, the line is printed,
and the record is written. -/
def commitInPlace (f : Flavour) (table : StatTable) (c : Context) (t : CompileTask)
    (time : Seconds) : InPlace Violation (Service × SymbolStore) Unit := do
  change fun r => (r.1, r.2.pin t.method.owner)
  change fun r => (r.1, r.2.pin t.method.name)
  change fun r => (r.1, r.2.pin t.method.signature)
  if t.directive.prints then
    change fun r =>
      ({ r.1 with inline := r.1.inline.print (inlineLine f t.kind t.method c.counter) }, r.2)
  change fun r => ({ r.1 with table := some (table.upsert t.method (commitOf c t time)) }, r.2)

def finishInPlace (f : Flavour) (c : Context) (time : Seconds) :
    InPlace Violation (Service × SymbolStore) Unit := do
  let r ← read
  check (f.assert r.1.enabled .notEnabled)
  match r.1.table with
  | none => return ()
  | some table =>
      check (f.assert c.task.isSome .endWithoutTask)
      match c.task with
      | none => return ()
      | some t =>
          check (f.assert t.directive.collects .endWithoutTracking)
          commitInPlace f table c t time

end Service

namespace Guard

def enterInPlace (f : Flavour) (s : Service) : InPlace Violation Context Guard := do
  let c ← read
  if tracks s c then
    Service.startInPlace f s
    return ⟨true⟩
  else return ⟨false⟩

def arenaInPlace (f : Flavour) (s : Service) (delta : Int64) (tag : ArenaTag) :
    InPlace Violation Context Bool :=
  if s.enabled then Service.arenaInPlace f s delta tag else return false

def dropInPlace (f : Flavour) (g : Guard) (c : Context) (time : Seconds) :
    InPlace Violation (Service × SymbolStore) Unit :=
  if g.active then Service.finishInPlace f c time else return ()

end Guard

namespace Context

theorem accountInPlace_eq (f : Flavour) {c : Context} (sound : c.counter.Sound) (delta : Int64)
    (tag : ArenaTag) : accountInPlace f delta tag c = settled c (c.account f delta tag) := by
  rw [accountInPlace, read_bind, onCounter, on_settled _ _ (PeakCounter.accountInPlace_eq f
    sound.current_le delta tag _) rfl, account]
  cases c.counter.account f delta tag (c.task.bind (·.nodeSource)) <;> rfl

end Context

namespace Service

theorem enableInPlace_eq (s : Service) :
    enableInPlace s = settled s (s.enable.map fun s => ((), s)) := by
  obtain ⟨enabled, table, inline⟩ := s
  cases enabled <;> cases table <;> rfl

theorem startInPlace_eq (f : Flavour) (s : Service) (c : Context) :
    startInPlace f s c = settled c ((s.start f c).map fun c => ((), c)) := by
  rw [startInPlace, start]
  cases f.assert s.enabled .notEnabled with
  | error v => rfl
  | ok _ => cases s.enabled <;> rfl

theorem arenaInPlace_eq (f : Flavour) (s : Service) {c : Context} (sound : c.counter.Sound)
    (delta : Int64) (tag : ArenaTag) :
    arenaInPlace f s delta tag c = settled c (s.arena f c delta tag) := by
  rw [arenaInPlace, arena]
  cases f.assert s.enabled .notEnabled with
  | error v => rfl
  | ok _ =>
      cases s.enabled with
      | false => rfl
      | true => exact c.accountInPlace_eq f sound delta tag

theorem commitInPlace_eq (f : Flavour) (s : Service) (symbols : SymbolStore) (table : StatTable)
    (c : Context) (t : CompileTask) (time : Seconds) :
    commitInPlace f table c t time (s, symbols) =
      (.ok (), s.commit f table c t time, symbols.pinMethod t.method) := by
  rw [commitInPlace, commit]
  cases t.directive.prints <;> rfl

theorem finishInPlace_eq (f : Flavour) (s : Service) (symbols : SymbolStore) (c : Context)
    (time : Seconds) :
    finishInPlace f c time (s, symbols) =
      settled (s, symbols) ((s.finish f symbols c time).map fun r => ((), r)) := by
  rw [finishInPlace, finish, read_bind]
  dsimp only
  cases f.assert s.enabled .notEnabled with
  | error v => rfl
  | ok _ =>
      rw [check_ok_bind]
      cases s.table with
      | none => rfl
      | some table =>
          cases f.assert c.task.isSome .endWithoutTask with
          | error v => rfl
          | ok _ =>
              cases c.task with
              | none => rfl
              | some t =>
                  dsimp only
                  cases f.assert t.directive.collects .endWithoutTracking with
                  | error v => rfl
                  | ok _ => exact commitInPlace_eq f s symbols table c t time

end Service

namespace Guard

theorem enterInPlace_eq (f : Flavour) (s : Service) (c : Context) :
    enterInPlace f s c = settled c (enter f s c) := by
  rw [enterInPlace, enter, read_bind]
  cases tracks s c with
  | false => rfl
  | true =>
      simp only [if_true]
      have started := s.startInPlace_eq f c
      cases run : s.start f c with
      | error v =>
          rw [run] at started
          exact bind_error started _
      | ok c' =>
          rw [run] at started
          exact bind_ok started _

theorem arenaInPlace_eq (f : Flavour) (s : Service) {c : Context} (sound : c.counter.Sound)
    (delta : Int64) (tag : ArenaTag) :
    arenaInPlace f s delta tag c = settled c (arena f s c delta tag) := by
  rw [arenaInPlace, arena]
  cases s.enabled with
  | false => rfl
  | true => exact s.arenaInPlace_eq f sound delta tag

theorem dropInPlace_eq (f : Flavour) (g : Guard) (s : Service) (symbols : SymbolStore)
    (c : Context) (time : Seconds) :
    dropInPlace f g c time (s, symbols) =
      settled (s, symbols) ((g.drop f s symbols c time).map fun r => ((), r)) := by
  rw [dropInPlace, drop]
  cases g.active with
  | false => rfl
  | true => exact s.finishInPlace_eq f symbols c time

end Guard

/-! ### Outputs that run full -/

/-- An output that takes at most so many bytes, and what it has taken. -/
structure Sink where
  limit : Option Nat
  taken : String

namespace Sink

open Session (Failure)

def exceeded (o : Sink) (text : String) : Bool :=
  o.limit.any (· < text.utf8ByteSize)

/-- Takes a piece of text, unless that would exceed the limit. -/
def write (piece : String) : InPlace Failure Sink Unit := fun o =>
  if o.exceeded (o.taken ++ piece) then (.error .sinkFull, o)
  else (.ok (), { o with taken := o.taken ++ piece })

def writeAll : List String → InPlace Failure Sink Unit
  | [] => pure ()
  | piece :: pieces => do
      write piece
      writeAll pieces

theorem exceeded_append {o : Sink} {text : String} (more : String)
    (exceeds : o.exceeded text = true) : o.exceeded (text ++ more) = true := by
  rw [exceeded, Option.any_eq_true] at exceeds ⊢
  obtain ⟨limit, found, above⟩ := exceeds
  refine ⟨limit, found, ?_⟩
  simp only [decide_eq_true_eq, String.utf8ByteSize_append] at above ⊢
  omega

/-- However a text is cut into pieces, an output runs full if the whole text is too long for it. -/
theorem writeAll_eq (pieces : List String) {o : Sink} (room : o.exceeded o.taken = false) :
    (o.exceeded (o.taken ++ String.join pieces) = true →
      ∃ o', writeAll pieces o = (.error .sinkFull, o')) ∧
    (o.exceeded (o.taken ++ String.join pieces) = false →
      writeAll pieces o = (.ok (), { o with taken := o.taken ++ String.join pieces })) := by
  induction pieces generalizing o with
  | nil =>
      rw [String.join_nil, String.append_empty, room]
      exact ⟨fun full => absurd full Bool.false_ne_true, fun _ => rfl⟩
  | cons piece pieces ih =>
      rw [String.join_cons, ← String.append_assoc]
      cases exceeds : o.exceeded (o.taken ++ piece) with
      | true =>
          have failed : write piece o = (.error .sinkFull, o) := by rw [write, if_pos exceeds]
          refine ⟨fun _ => ⟨o, bind_error failed _⟩, fun fits => ?_⟩
          rw [exceeded_append _ exceeds] at fits
          cases fits
      | false =>
          have taken : write piece o = (.ok (), { o with taken := o.taken ++ piece }) := by
            rw [write, if_neg (Bool.eq_false_iff.mp exceeds)]
          have rest := ih (o := { o with taken := o.taken ++ piece }) exceeds
          rw [writeAll, bind_ok taken]
          exact rest

end Sink

/-- A way to cut texts into the pieces that they are written in. -/
structure Cut where
  pieces : String → List String
  whole : ∀ text, String.join (pieces text) = text

theorem Cut.join_flatMap (cut : Cut) (texts : List String) :
    String.join (texts.flatMap cut.pieces) = String.join texts := by
  induction texts with
  | nil => rfl
  | cons text texts ih =>
      rw [List.flatMap_cons, String.join_append, cut.whole, ih, String.join_cons]

namespace Service

open Session (Failure)

/-- A report in place: its lines are written one after the other, each in pieces. -/
def reportInPlace (f : Flavour) (cut : Cut) (s : Service) (order : Arrangement) (human : Bool)
    (minSize : UInt64) : InPlace Failure Sink Unit := do
  check ((s.audit f minSize).mapError .violated)
  Sink.writeAll (((s.reportLines order minSize).map (·.text human)).flatMap cut.pieces)

/-- A report runs full exactly when the whole of it is too long, and else it is written. -/
theorem reportInPlace_eq (f : Flavour) (cut : Cut) (s : Service) (order : Arrangement)
    (human : Bool) (minSize : UInt64) (limit : Option Nat) :
    match s.reportWithin order human minSize limit with
    | some text => reportInPlace f cut s order human minSize ⟨limit, ""⟩ = (.ok (), ⟨limit, text⟩)
    | none =>
        ∃ o, reportInPlace f cut s order human minSize ⟨limit, ""⟩ = (.error .sinkFull, o) := by
  have room : (⟨limit, ""⟩ : Sink).exceeded "" = false := by
    cases limit <;> simp [Sink.exceeded]
  obtain ⟨full, fits⟩ := Sink.writeAll_eq
    (((s.reportLines order minSize).map (·.text human)).flatMap cut.pieces) room
  rw [cut.join_flatMap, String.empty_append, show String.join
    ((s.reportLines order minSize).map (·.text human)) = s.report order human minSize from rfl]
    at full fits
  have limited : s.reportWithin order human minSize limit =
      if (⟨limit, ""⟩ : Sink).exceeded (s.report order human minSize) then none
      else some (s.report order human minSize) := rfl
  simp only [reportInPlace, audit_eq, Except.mapError, check_ok_bind, limited]
  cases exceeds : (⟨limit, ""⟩ : Sink).exceeded (s.report order human minSize) with
  | true => exact full exceeds
  | false => exact fits exceeds

end Service

end ArenaPeak
