import ArenaPeak.Json.Codec
import ArenaPeak.Proofs.JsonRecords

/-!
The ways in which configurations and traces are written as JSON, at every level of what they are
made of. A name may be an alias, fields may stand in any order or without their names, undeclared
ones may stand between them, and where a field has a value of its own it may be missing. The readers
find a value exactly in the ways to write it.
-/

namespace ArenaPeak

open Json

theorem StatMode.ofJson?_eq_some (m : StatMode) (j : Json) :
    ofJson? j = some m ↔ NamedBy ofName? m j :=
  name?_eq_some ofName? m j

theorem ArenaTag.ofJson?_eq_some (t : ArenaTag) (j : Json) :
    ofJson? j = some t ↔ NamedBy ofName? t j :=
  name?_eq_some ofName? t j

theorem CompilerKind.ofJson?_eq_some (k : CompilerKind) (j : Json) :
    ofJson? j = some k ↔ NamedBy ofName? k j :=
  name?_eq_some ofName? k j

theorem ThreadId.ofJson?_eq_some (t : ThreadId) (j : Json) :
    ofJson? j = some t ↔ j = ofWord t.number := by
  rw [ofJson?, Option.map_eq_some_iff, ← word?_eq_some]
  constructor
  · rintro ⟨w, read, rfl⟩
    exact read
  · intro read
    exact ⟨t.number, read, rfl⟩

/-! ### Records

`Fills` says what may stand for each field of a record, in the order of the names. -/

namespace MethodPattern

def fieldNames : List String :=
  ["class", "method"]

inductive Fills (p : MethodPattern) : List (Option Json) → Prop
  | slots : Fills p [some (.str p.owner), some (.str p.name)]

def Written (p : MethodPattern) : Json → Prop :=
  Record fieldNames p.Fills

theorem ofJson?_eq_some (p : MethodPattern) (j : Json) : ofJson? j = some p ↔ p.Written j := by
  refine record_eq_some fun ss => ?_
  constructor
  · intro run
    split at run
    · simp only [Option.bind_eq_bind, Option.bind_eq_some_iff, required_eq_some str?_eq_some] at run
      obtain ⟨_, ⟨_, rfl, rfl⟩, _, ⟨_, rfl, rfl⟩, made⟩ := run
      cases made
      exact .slots
    · cases run
  · rintro ⟨⟩
    rfl

end MethodPattern

namespace StatCommand

def fieldNames : List String :=
  ["mode", "pattern"]

inductive Fills (c : StatCommand) : List (Option Json) → Prop
  | slots (mode pattern : Json) (m : NamedBy StatMode.ofName? c.mode mode)
      (p : c.pattern.Written pattern) : Fills c [some mode, some pattern]

def Written (c : StatCommand) : Json → Prop :=
  Record fieldNames c.Fills

theorem ofJson?_eq_some (c : StatCommand) (j : Json) : ofJson? j = some c ↔ c.Written j := by
  refine record_eq_some fun ss => ?_
  constructor
  · intro run
    split at run
    · simp only [Option.bind_eq_bind, Option.bind_eq_some_iff,
        required_eq_some StatMode.ofJson?_eq_some,
        required_eq_some MethodPattern.ofJson?_eq_some] at run
      obtain ⟨_, ⟨mode, rfl, m⟩, _, ⟨pattern, rfl, p⟩, made⟩ := run
      cases made
      exact .slots mode pattern m p
    · cases run
  · rintro ⟨mode, pattern, m, p⟩
    simp only [Option.bind_eq_bind, Option.bind_eq_some_iff,
      required_eq_some StatMode.ofJson?_eq_some, required_eq_some MethodPattern.ofJson?_eq_some]
    exact ⟨_, ⟨mode, rfl, m⟩, _, ⟨pattern, rfl, p⟩, rfl⟩

end StatCommand

namespace StatConfig

def fieldNames : List String :=
  ["enabled", "commands", "human_readable", "min_size", "threads"]

inductive Fills (c : StatConfig) : List (Option Json) → Prop
  | slots (commands : Json) (cs : Listed StatCommand.Written c.commands commands) :
      Fills c [some (.bool c.enabled), some commands, some (.bool c.humanReadable),
        some (ofWord c.minSize), some (ofWord c.threads)]

def Written (c : StatConfig) : Json → Prop :=
  Record fieldNames c.Fills

theorem ofJson?_eq_some (c : StatConfig) (j : Json) : ofJson? j = some c ↔ c.Written j := by
  have listed := list?_eq_some StatCommand.ofJson?_eq_some
  refine record_eq_some fun ss => ?_
  constructor
  · intro run
    split at run
    · simp only [Option.bind_eq_bind, Option.bind_eq_some_iff, required_eq_some bool?_eq_some,
        required_eq_some word?_eq_some, required_eq_some listed] at run
      obtain ⟨_, ⟨_, rfl, rfl⟩, _, ⟨commands, rfl, cs⟩, _, ⟨_, rfl, rfl⟩, _, ⟨_, rfl, rfl⟩, _,
        ⟨_, rfl, rfl⟩, made⟩ := run
      cases made
      exact .slots commands cs
    · cases run
  · rintro ⟨commands, cs⟩
    simp only [Option.bind_eq_bind, Option.bind_eq_some_iff, required_eq_some bool?_eq_some,
      required_eq_some word?_eq_some, required_eq_some listed]
    exact ⟨_, ⟨_, rfl, rfl⟩, _, ⟨commands, rfl, cs⟩, _, ⟨_, rfl, rfl⟩, _, ⟨_, rfl, rfl⟩, _,
      ⟨_, rfl, rfl⟩, rfl⟩

end StatConfig

namespace Directive

def fieldNames : List String :=
  ["collect", "print"]

inductive Fills (d : Directive) : List (Option Json) → Prop
  | slots (collect print : Option Json)
      (c : Defaulted false (fun b j => j = .bool b) d.collect collect)
      (p : Defaulted false (fun b j => j = .bool b) d.print print) : Fills d [collect, print]

def Written (d : Directive) : Json → Prop :=
  Record fieldNames d.Fills

theorem ofJson?_eq_some (d : Directive) (j : Json) : ofJson? j = some d ↔ d.Written j := by
  refine record_eq_some fun ss => ?_
  constructor
  · intro run
    split at run
    · simp only [Option.bind_eq_bind, Option.bind_eq_some_iff,
        defaulted_eq_some bool?_eq_some] at run
      obtain ⟨_, c, _, p, made⟩ := run
      cases made
      exact .slots _ _ c p
    · cases run
  · rintro ⟨collect, print, c, p⟩
    simp only [Option.bind_eq_bind, Option.bind_eq_some_iff, defaulted_eq_some bool?_eq_some]
    exact ⟨_, c, _, p, rfl⟩

end Directive

namespace PeakSnapshot

def fieldNames : List String :=
  ["total", "node_bytes", "resource_bytes", "live_nodes"]

inductive Fills (p : PeakSnapshot) : List (Option Json) → Prop
  | slots : Fills p [some (ofWord p.total), some (ofWord p.nodeBytes),
      some (ofWord p.resourceBytes), some (ofHalfWord p.liveNodes)]

def Written (p : PeakSnapshot) : Json → Prop :=
  Record fieldNames p.Fills

theorem ofJson?_eq_some (p : PeakSnapshot) (j : Json) : ofJson? j = some p ↔ p.Written j := by
  refine record_eq_some fun ss => ?_
  constructor
  · intro run
    split at run
    · simp only [Option.bind_eq_bind, Option.bind_eq_some_iff, required_eq_some word?_eq_some,
        required_eq_some halfWord?_eq_some] at run
      obtain ⟨_, ⟨_, rfl, rfl⟩, _, ⟨_, rfl, rfl⟩, _, ⟨_, rfl, rfl⟩, _, ⟨_, rfl, rfl⟩, made⟩ := run
      cases made
      exact .slots
    · cases run
  · rintro ⟨⟩
    simp only [Option.bind_eq_bind, Option.bind_eq_some_iff, required_eq_some word?_eq_some,
      required_eq_some halfWord?_eq_some]
    exact ⟨_, ⟨_, rfl, rfl⟩, _, ⟨_, rfl, rfl⟩, _, ⟨_, rfl, rfl⟩, _, ⟨_, rfl, rfl⟩, rfl⟩

end PeakSnapshot

namespace TraceEvent

def fieldNames : List String :=
  ["delta", "tag", "live_nodes"]

inductive Fills (e : TraceEvent) : List (Option Json) → Prop
  | slots (tag : Json) (liveNodes : Option Json) (t : NamedBy ArenaTag.ofName? e.tag tag)
      (n : Defaulted none (Nullable fun n j => j = ofHalfWord n) e.liveNodes liveNodes) :
      Fills e [some (ofSignedWord e.delta), some tag, liveNodes]

def Written (e : TraceEvent) : Json → Prop :=
  Record fieldNames e.Fills

theorem ofJson?_eq_some (e : TraceEvent) (j : Json) : ofJson? j = some e ↔ e.Written j := by
  have live := nullable_eq_some halfWord?_eq_some fun n => by simp [ofHalfWord]
  refine record_eq_some fun ss => ?_
  constructor
  · intro run
    split at run
    · simp only [Option.bind_eq_bind, Option.bind_eq_some_iff, required_eq_some signedWord?_eq_some,
        required_eq_some ArenaTag.ofJson?_eq_some, defaulted_eq_some live] at run
      obtain ⟨_, ⟨_, rfl, rfl⟩, _, ⟨tag, rfl, t⟩, _, n, made⟩ := run
      cases made
      exact .slots tag _ t n
    · cases run
  · rintro ⟨tag, liveNodes, t, n⟩
    simp only [Option.bind_eq_bind, Option.bind_eq_some_iff, required_eq_some signedWord?_eq_some,
      required_eq_some ArenaTag.ofJson?_eq_some, defaulted_eq_some live]
    exact ⟨_, ⟨_, rfl, rfl⟩, _, ⟨tag, rfl, t⟩, _, n, rfl⟩

end TraceEvent

namespace TraceCompilation

def fieldNames : List String :=
  ["class", "method", "signature", "compiler", "directive", "events"]

inductive Fills (c : TraceCompilation) : List (Option Json) → Prop
  | slots (compiler directive events : Option Json)
      (k : Defaulted .c1 (NamedBy CompilerKind.ofName?) c.compiler compiler)
      (d : Defaulted none (Nullable Directive.Written) c.directive directive)
      (es : Defaulted [] (Listed TraceEvent.Written) c.events events) :
      Fills c [some (.str c.owner), some (.str c.method), some (.str c.signature), compiler,
        directive, events]

def Written (c : TraceCompilation) : Json → Prop :=
  Record fieldNames c.Fills

theorem ofJson?_eq_some (c : TraceCompilation) (j : Json) : ofJson? j = some c ↔ c.Written j := by
  have listed := list?_eq_some TraceEvent.ofJson?_eq_some
  have switched := nullable_eq_some Directive.ofJson?_eq_some fun _ => not_record_null
  refine record_eq_some fun ss => ?_
  constructor
  · intro run
    split at run
    · simp only [Option.bind_eq_bind, Option.bind_eq_some_iff, required_eq_some str?_eq_some,
        defaulted_eq_some CompilerKind.ofJson?_eq_some, defaulted_eq_some switched,
        defaulted_eq_some listed] at run
      obtain ⟨_, ⟨_, rfl, rfl⟩, _, ⟨_, rfl, rfl⟩, _, ⟨_, rfl, rfl⟩, _, k, _, d, _, es, made⟩ := run
      cases made
      exact .slots _ _ _ k d es
    · cases run
  · rintro ⟨compiler, directive, events, k, d, es⟩
    simp only [Option.bind_eq_bind, Option.bind_eq_some_iff, required_eq_some str?_eq_some,
      defaulted_eq_some CompilerKind.ofJson?_eq_some, defaulted_eq_some switched,
      defaulted_eq_some listed]
    exact ⟨_, ⟨_, rfl, rfl⟩, _, ⟨_, rfl, rfl⟩, _, ⟨_, rfl, rfl⟩, _, k, _, d, _, es, rfl⟩

end TraceCompilation

namespace Trace

def fieldNames : List String :=
  ["threads", "compilations"]

inductive Fills (t : Trace) : List (Option Json) → Prop
  | slots (threads : Option Json) (compilations : Json)
      (n : Defaulted none (Nullable fun n j => j = ofWord n) t.threads threads)
      (cs : Listed TraceCompilation.Written t.compilations compilations) :
      Fills t [threads, some compilations]

def Written (t : Trace) : Json → Prop :=
  Record fieldNames t.Fills

theorem ofJson?_eq_some (t : Trace) (j : Json) : ofJson? j = some t ↔ t.Written j := by
  have listed := list?_eq_some TraceCompilation.ofJson?_eq_some
  have threads := nullable_eq_some word?_eq_some fun n => by simp [ofWord]
  refine record_eq_some fun ss => ?_
  constructor
  · intro run
    split at run
    · simp only [Option.bind_eq_bind, Option.bind_eq_some_iff, required_eq_some listed,
        defaulted_eq_some threads] at run
      obtain ⟨_, n, _, ⟨compilations, rfl, cs⟩, made⟩ := run
      cases made
      exact .slots _ compilations n cs
    · cases run
  · rintro ⟨_, compilations, n, cs⟩
    simp only [Option.bind_eq_bind, Option.bind_eq_some_iff, required_eq_some listed,
      defaulted_eq_some threads]
    exact ⟨_, n, _, ⟨compilations, rfl, cs⟩, rfl⟩

end Trace

end ArenaPeak
