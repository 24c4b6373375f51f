import ArenaPeak.CommandLine.Readers
import ArenaPeak.Proofs.OneWorker
import ArenaPeak.Proofs.Settings

/-!
The program as the composition of its parts. A replay reads its trace and its settings, replays the
trace on a service that it switches on first and prints the inline lines and the report; it prints
nothing before all of that is done, so where a stage fails there is its message and nothing else.
How many threads are asked for plays no part, unless the outcome of the trace depends on which
worker acts when. How arguments and traces are read is up to any readers.
-/

namespace ArenaPeak.CommandLine

open Replay (LineOf Indifferent effective exists_replay workerCount threadsFor)

/-- The code that a run ends with, and what it writes. -/
def Outcome.written (r : Outcome) : Nat × String × String :=
  (r.code, r.stdout, r.stderr)

/-- Why a replay stops: its trace does not get through, or else its commands cannot be read. -/
inductive Stops (readers : Readers) (w : Surroundings) (o : ReplayOptions) : Failure → Prop
  | trace (cause : Failure) (stops : TraceStops readers w o.trace cause) : Stops readers w o cause
  | config (t : Trace) (e : ConfigError) (accepted : Accepts readers w o.trace t)
      (stops : ConfigStops w o e) : Stops readers w o (.config e)

/-- A site whose service was just switched on. -/
def freshSite : Site :=
  (Site.new ⟨true, []⟩).turnOn

/-- A replay that does not stop: what it reads, and the service when its workers are done. -/
structure Replays (f : Flavour) (readers : Readers) (w : Surroundings) (o : ReplayOptions)
    (t : Trace) (config : StatConfig) (s : Service) : Prop where
  accepted : Accepts readers w o.trace t
  settings : Settings w o config
  replayed : ∃ outcome site,
    Replay.replay f config freshSite t (threadsFor o.threads t config) w.course =
      .ok (outcome, site) ∧ site.service = s

/-- What a replay writes that does not stop: all lines that were printed inline, and then the report
that is asked for, as text or as JSON. -/
structure Prints (w : Surroundings) (o : ReplayOptions) (config : StatConfig) (s : Service)
    (written : Nat × String × String) : Prop where
  text : o.format = .text → written =
    (0, String.join s.inline.lines ++ s.report w.order config.humanReadable config.minSize, "")
  json : o.format = .json → written =
    (0, String.join s.inline.lines ++ (s.jsonReport w.order config.minSize).pretty ++ "\n", "")

/-- What one worker comes to in place of a pool. It prints one line for each compilation that
prints, in the order of the trace, and all its records show its own thread. -/
structure LikeOne (f : Flavour) (w : Surroundings) (o : ReplayOptions) (t : Trace)
    (config : StatConfig) (s one : Service) : Prop where
  replayed : ∃ outcome site,
    Replay.replay f config freshSite t 1 w.course = .ok (outcome, site) ∧ site.service = one
  lines : List.Forall₂ (LineOf f) (t.compilations.filter fun c => (effective config c).prints)
    one.inline.lines
  sole : one.anonymous = one
  /-- What is shown of a replay is what one worker shows, if it does not depend on which worker acts
  when: the text that is printed, say. -/
  pooled : ∀ {α : Type} (shown : Service → α),
    Indifferent f config freshSite t (threadsFor o.threads t config) w.course.clock shown →
      shown s = shown one
  /-- Threads are numbered as they are started. What they are called can be left out of it. -/
  unnamed : ∀ {α : Type} (shown : Service → α),
    Indifferent f config freshSite t (threadsFor o.threads t config) w.course.clock
      (fun s => shown s.anonymous) → shown s.anonymous = shown one
  /-- With one worker, nothing does. -/
  single : workerCount (threadsFor o.threads t config).toNat t.compilations.length = 1 → s = one

variable {f : Flavour} {readers : Readers} {w : Surroundings} {o : ReplayOptions} {t : Trace}
variable {config : StatConfig} {s : Service}

theorem Accepts.valid {path : String} (h : Accepts readers w path t) : t.validate = .ok () := by
  obtain ⟨_, _, _, _, _, valid⟩ := h
  exact valid

theorem accepts_or_stops (readers : Readers) (w : Surroundings) (path : String) :
    (∃ t, Accepts readers w path t) ∨ ∃ cause, TraceStops readers w path cause := by
  cases read : readTrace readers w path with
  | ok t => exact .inl ⟨t, readTrace_eq_ok.mp read⟩
  | error cause => exact .inr ⟨cause, readTrace_eq_error.mp read⟩

theorem Accepts.passes {path : String} (h : Accepts readers w path t) {cause : Failure} :
    ¬ TraceStops readers w path cause := by
  intro stops
  cases (readTrace_eq_ok.mpr h).symm.trans (readTrace_eq_error.mpr stops)

theorem exists_replays (f : Flavour) (accepted : Accepts readers w o.trace t)
    (settings : Settings w o config) : ∃ s, Replays f readers w o t config s := by
  obtain ⟨outcome, site, replayed⟩ := Replay.exists_replayed f config freshSite
    (threadsFor o.threads t config) w.course accepted.valid
  exact ⟨site.service, accepted, settings, outcome, site, replayed, rfl⟩

theorem stops_or_replays (f : Flavour) (readers : Readers) (w : Surroundings) (o : ReplayOptions) :
    (∃ cause, Stops readers w o cause) ∨ ∃ t config s, Replays f readers w o t config s := by
  cases accepts_or_stops readers w o.trace with
  | inr stops =>
      obtain ⟨cause, stops⟩ := stops
      exact .inl ⟨cause, .trace cause stops⟩
  | inl accepts =>
      obtain ⟨t, accepted⟩ := accepts
      cases read : configFor w o with
      | error e => exact .inl ⟨.config e, .config t e accepted (configFor_eq_error.mp read)⟩
      | ok config => exact .inr ⟨t, config, exists_replays f accepted (configFor_eq_ok.mp read)⟩

theorem replay_stops {cause : Failure} (stops : Stops readers w o cause) :
    replay f readers w o = .error cause := by
  cases stops with
  | trace cause stops =>
      rw [replay, readTrace_eq_error.mpr stops]
      rfl
  | config t e accepted stops =>
      rw [replay, readTrace_eq_ok.mpr accepted, configFor_eq_error.mpr stops]
      rfl

theorem replay_replays (h : Replays f readers w o t config s) :
    ∃ site, site.service = s ∧
      replay f readers w o = .ok (output site w.order config o.format) := by
  obtain ⟨outcome, site, replayed, after⟩ := h.replayed
  have enable : config.shouldEnable = true := by
    rw [StatConfig.shouldEnable, h.settings.enabled, Bool.true_or]
  refine ⟨site, after, ?_⟩
  rw [freshSite] at replayed
  rw [replay, readTrace_eq_ok.mpr h.accepted, configFor_eq_ok.mpr h.settings]
  simp only [bind, Except.bind, Except.mapError, enable, if_true, replayed, Service.audit_eq]
  rfl

theorem Replays.likeOne (h : Replays f readers w o t config s) :
    ∃ one, LikeOne f w o t config s one := by
  obtain ⟨outcome, site, replayed, rfl⟩ := h.replayed
  obtain ⟨outcome₁, site₁, replayed₁, lines, sole⟩ :=
    exists_replay f config h.accepted.valid w.course
  have pooled {α : Type} (shown : Service → α)
      (indifferent : Indifferent f config freshSite t (threadsFor o.threads t config) w.course.clock
        shown) : shown site.service = shown site₁.service := by
    have same := indifferent.shown_eq
    rw [replayed] at same
    rw [freshSite, replayed₁] at same
    exact (Prod.mk.inj (Except.ok.inj same)).2
  refine ⟨site₁.service, ⟨outcome₁, site₁, replayed₁, rfl⟩, lines, sole.anonymous_eq, pooled, ?_, ?_⟩
  · intro α shown indifferent
    exact (pooled _ indifferent).trans (congrArg shown sole.anonymous_eq)
  · intro one
    have alone := Replay.replay_single f config freshSite t one w.course
    have alone₁ := Replay.replay_single f config freshSite t
      (Replay.workerCount_one t.compilations.length) w.course
    rw [replayed] at alone
    rw [freshSite, replayed₁, ← freshSite, ← alone] at alone₁
    cases alone₁
    rfl

/-- A validation gets through where a replay of the same file gets past its trace; elsewhere both
give the same message. -/
inductive Validated (f : Flavour) (readers : Readers) (w : Surroundings) (arguments : List String)
    (path : String) : Prop
  | valid (t : Trace) (accepted : Accepts readers w path t)
      (written : (run f readers w arguments).written = (0, "✓ Trace is valid\n", ""))
      (past : ∀ o cause, o.trace = path → Stops readers w o cause → ∃ e, cause = .config e)
  | invalid (cause : Failure) (text : String) (stops : TraceStops readers w path cause)
      (worded : cause.Worded text)
      (written : (run f readers w arguments).written =
        (1, "", "Validation failed: " ++ text ++ "\n"))
      (alike : ∀ o arguments', o.trace = path →
        readers.invocation arguments' = .ok (.replay o) →
        (run f readers w arguments').written = (1, "", "Error: " ++ text ++ "\n"))

/-- What the program comes to with arguments that it accepts. -/
structure Composed (f : Flavour) (readers : Readers) (w : Surroundings) (arguments : List String) :
    Prop where
  /-- A replay stops or goes through. -/
  either : ∀ o, readers.invocation arguments = .ok (.replay o) →
    (∃ cause, Stops readers w o cause) ∨ ∃ t config s, Replays f readers w o t config s
  stops : ∀ o cause, readers.invocation arguments = .ok (.replay o) → Stops readers w o cause →
    ∃ text, cause.Worded text ∧
      (run f readers w arguments).written = (1, "", "Error: " ++ text ++ "\n")
  prints : ∀ o t config s, readers.invocation arguments = .ok (.replay o) →
    Replays f readers w o t config s → Prints w o config s (run f readers w arguments).written
  likeOne : ∀ o t config s, readers.invocation arguments = .ok (.replay o) →
    Replays f readers w o t config s → ∃ one, LikeOne f w o t config s one
  validates : ∀ path, readers.invocation arguments = .ok (.validate path) →
    Validated f readers w arguments path

theorem written_stops {arguments : List String} {cause : Failure}
    (given : readers.invocation arguments = .ok (.replay o)) (stops : Stops readers w o cause) :
    (run f readers w arguments).written = (1, "", "Error: " ++ cause.message ++ "\n") := by
  simp only [run, given, replay_stops stops]
  rfl

theorem prints_replays {arguments : List String}
    (given : readers.invocation arguments = .ok (.replay o))
    (replays : Replays f readers w o t config s) :
    Prints w o config s (run f readers w arguments).written := by
  obtain ⟨site, rfl, printed⟩ := replay_replays replays
  have written : (run f readers w arguments).written =
      (0, output site w.order config o.format, "") := by
    simp only [run, given, printed]
    rfl
  refine ⟨fun text => ?_, fun json => ?_⟩
  · simp only [written, output, text]
  · simp only [written, output, json, String.append_assoc]

theorem validated (f : Flavour) {arguments : List String} {path : String}
    (given : readers.invocation arguments = .ok (.validate path)) :
    Validated f readers w arguments path := by
  cases accepts_or_stops readers w path with
  | inl accepts =>
      obtain ⟨t, accepted⟩ := accepts
      refine .valid t accepted ?_ ?_
      · simp only [run, given, readTrace_eq_ok.mpr accepted]
        rfl
      · rintro o cause rfl stops
        cases stops with
        | trace cause stops => exact absurd stops accepted.passes
        | config t e accepted stops => exact ⟨e, rfl⟩
  | inr stops =>
      obtain ⟨cause, stops⟩ := stops
      refine .invalid cause cause.message stops cause.worded_message ?_ ?_
      · simp only [run, given, readTrace_eq_error.mpr stops]
        rfl
      · rintro o arguments' rfl given'
        exact written_stops given' (.trace cause stops)

/-- Every accepted command line comes to the replay of the library under the settings of its
arguments and its environment, or to the message of the first stage that fails. -/
theorem composed (f : Flavour) (readers : Readers) (w : Surroundings) (arguments : List String) :
    Composed f readers w arguments where
  either o _ := stops_or_replays f readers w o
  stops _ cause given stops := ⟨cause.message, cause.worded_message, written_stops given stops⟩
  prints _ _ _ _ given replays := prints_replays given replays
  likeOne _ _ _ _ _ replays := replays.likeOne
  validates _ given := validated f given

/-- A file with two compilations, which are both printed; the second worker is picked first. -/
def printing : Surroundings where
  environment name := if name = "MEMSTAT_COMMANDS" then some "print,*.*" else none
  file path :=
    if path = "trace.yaml" then
      .ok ("\x7bcompilations: [\x7bclass: A, method: a, signature: \"\"\x7d, " ++
        "\x7bclass: B, method: b, signature: \"\", " ++
        "events: [\x7bdelta: 8, tag: node\x7d]\x7d]\x7d").toUTF8
    else .error .missing
  course := ⟨[1, 1], fun _ => .zero⟩
  order := .asCommitted

/-- A replay of that file by two workers, with a report in JSON. -/
def printing.arguments : List String :=
  ["replay", "--trace", "trace.yaml", "--threads", "2", "--format", "json", "--min-size", "8"]

def printing.options : ReplayOptions :=
  ⟨"trace.yaml", some 2, false, some 8, [], .json⟩

/-- Both compilations print their lines, and one of the records reaches the bound. -/
def printing.text : String :=
  "c1 Arena usage A::a(): 0 [na 0 ra 0] (0->0->0)\n" ++
  "c1 Arena usage B::b(): 8 [na 8 ra 0] (0->8->8)\n" ++
  "[\n  \x7b\n    \"kind\": \"c1\",\n    \"live_nodes_at_peak\": 0,\n" ++
  "    \"method\": \"B::b()\",\n    \"node_at_peak\": 8,\n    \"recompilations\": 1,\n" ++
  "    \"resource_at_peak\": 0,\n    \"thread\": 1,\n    \"time\": 0.0,\n" ++
  "    \"total\": 8\n  \x7d\n]\n"

theorem composed_two_workers :
    ∃ t config s one,
      Replays .debug .standard printing printing.options t config s ∧
      LikeOne .debug printing printing.options t config s one ∧
      String.join s.inline.lines ++ (s.jsonReport .asCommitted config.minSize).pretty ++ "\n" =
        printing.text := by
  have composed := composed .debug .standard printing printing.arguments
  have given : Readers.standard.invocation printing.arguments = .ok (.replay printing.options) := by
    decide +kernel
  have written : (run .debug .standard printing printing.arguments).written =
      (0, printing.text, "") := by
    decide +kernel
  cases composed.either _ given with
  | inl stops =>
      obtain ⟨cause, stops⟩ := stops
      obtain ⟨text, -, failed⟩ := composed.stops _ cause given stops
      cases congrArg Prod.fst (written.symm.trans failed)
  | inr replays =>
      obtain ⟨t, config, s, replays⟩ := replays
      obtain ⟨one, likeOne⟩ := composed.likeOne _ t config s given replays
      have printed := (composed.prints _ t config s given replays).json rfl
      exact ⟨t, config, s, one, replays, likeOne,
        congrArg (fun w => w.2.1) (printed.symm.trans written)⟩

end ArenaPeak.CommandLine
